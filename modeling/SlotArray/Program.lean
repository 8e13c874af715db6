import SlotArray.CommandLine
import SlotArray.Files.Sink
import SlotArray.Manifest

/-! The program: what a command line does to a tree of files, and what it prints.

A run reads one file, decides, and writes at most one file. The decision in between is
the pure function `Options.plan`, so a run on a model tree and one on the real file system
differ in nothing but the reading and writing. -/
namespace SlotArray

/-- How a run ends. -/
structure Outcome where
  exitCode : Nat
  stdout : String
  /-- What is reported as an error. -/
  report : Option String
deriving DecidableEq, Repr

/-- A run that ends well and prints a text. -/
def Outcome.success (stdout : String) : Outcome := ⟨0, stdout, none⟩

/-- Text set in under a cause's number: its later lines stand below its first one. -/
def indentCause (lead later : String) (text : String) : String :=
  lead ++ String.ofList (text.toList.flatMap fun c =>
    if c = '\n' then '\n' :: later.toList else [c])

/-- A message with the causes behind it, numbered if there are several. -/
def reportChain (message : String) (causes : List String) : String :=
  match causes with
  | [] => message
  | [only] => message ++ "\n\nCaused by:\n" ++ indentCause "    " "    " only
  | several =>
    message ++ "\n\nCaused by:" ++
      String.join (several.mapIdx fun number cause =>
        let number := toString number
        let width := String.ofList (List.replicate (5 - number.length) ' ') ++ number
        "\n" ++ indentCause (width ++ ": ") "       " cause)

/-- The messages of an error, the outermost first. -/
def PassError.chain (error : PassError) : List String :=
  error.message :: error.cause?.toList.map FileFault.message

/-- A run that ends in an error, perhaps with words about what failed before it. -/
def Outcome.failure (context : Option String) (error : PassError) : Outcome :=
  let report :=
    match context, error.chain with
    | some context, causes => reportChain context causes
    | none, message :: causes => reportChain message causes
    | none, [] => ""
  ⟨1, "", some report⟩

/-- What a run does once the manifest is read. -/
inductive Plan where
  | finish (outcome : Outcome)
  /-- Write a document into a directory. -/
  | store (generator : Generator) (feed : List Occurrence) (dir : String)

namespace Options

/-- The settings of a run: those of the manifest, but the jobs of the command line. -/
def generator (options : Options) (manifest : Manifest) : Generator :=
  let generator := Generator.ofConfig manifest.config
  match options.jobs with
  | some jobs => generator.withWorkers jobs
  | none => generator

/-- What failed, in the words of a report. -/
def context (options : Options) : String := "generation from `" ++ options.manifest ++ "` failed"

/-- Decides what to do with the contents of the manifest. -/
def plan (options : Options) (contents : Except FileFault ByteArray) : Plan :=
  match Manifest.ofFile options.manifest contents with
  | .error error => .finish (.failure none error)
  | .ok manifest =>
    let generator := options.generator manifest
    if options.toStdout then
      match generator.generate manifest.occurrences with
      | .error error => .finish (.failure none error)
      | .ok text? => .finish (.success (text?.getD ""))
    else .store generator manifest.occurrences (options.outDir.getD manifest.outDir)

/-- How a run ends that tried to store its document. -/
def afterStore (options : Options) : Except PassError Nat → Outcome
  | .ok _ => .success ""
  | .error error => .failure (some options.context) error

/-- A run on a tree of files, in one of its directories. -/
def run (options : Options) (start : Files.Place) (tree : Files.Tree) : Outcome × Files.Tree :=
  match options.plan (tree.read start options.manifest) with
  | .finish outcome => (outcome, tree)
  | .store generator feed dir =>
    let (result, tree) := generator.run (Files.sink start dir) feed tree
    (options.afterStore result, tree)

end Options

namespace CommandLine

/-- What the program prints when asked for help. -/
def helpText (inherited : Option String) : String :=
  "Generate fixed-capacity struct array types from a manifest\n\n" ++
    "Usage: struct-array-gen [OPTIONS] [MANIFEST]\n\n" ++
    "Arguments:\n" ++
    "  [MANIFEST]  Manifest listing the `[[struct_array]]` types to generate " ++
    "[default: StructArrays.toml]\n\n" ++
    "Options:\n" ++
    "  -o, --out-dir <OUT_DIR>  Directory to write the generated file to, overriding " ++
    "`[generator] out_dir` [env: STRUCT_ARRAY_OUT_DIR=" ++ inherited.getD "" ++ "]\n" ++
    "  -j, --jobs <JOBS>        Number of synthesis threads, overriding `[generator] workers`\n" ++
    "      --stdout             Print the generated document instead of writing it\n" ++
    "  -v, --verbose...         Increase log verbosity (-v for debug, -vv for trace)\n" ++
    "  -h, --help               Print help\n" ++
    "  -V, --version            Print version\n"

/-- A command line on a tree of files, in one of its directories. A wrong one ends with exit
code 2. -/
def run (inherited : Option String) (arguments : List String) (start : Files.Place)
    (tree : Files.Tree) : Outcome × Files.Tree :=
  match parse inherited arguments with
  | .error _ => (⟨2, "", none⟩, tree)
  | .ok .version => (.success versionText, tree)
  | .ok .help => (.success (helpText inherited), tree)
  | .ok (.run options) => options.run start tree

end CommandLine
end SlotArray
