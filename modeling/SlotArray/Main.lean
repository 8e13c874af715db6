import SlotArray.Program

/-! The program on the real file system. All it decides is decided by `CommandLine.parse` and
`Options.plan`; here is only reading, printing and writing. -/
namespace SlotArray

/-- The fault behind an error of the file system. -/
def FileFault.ofError : IO.Error → FileFault
  | .noFileOrDirectory .. => .notFound
  | .noSuchThing .. => .notFound
  | .alreadyExists .. => .exists
  | .permissionDenied .. => .denied
  | .inappropriateType _ code _ => if code = 20 then .notDirectory else .isDirectory
  | error => .other (toString error)

/-- Runs an action on the file system and keeps its fault. -/
def attempt {α : Type} (action : IO α) : IO (Except FileFault α) := do
  match ← action.toBaseIO with
  | .ok value => return .ok value
  | .error error => return .error (.ofError error)

/-- Writes a document into a directory, which is made if it is missing. -/
def store (dir name text : String) : IO (Except PassError Unit) := do
  let made ← if dir.isEmpty then pure (.ok ()) else attempt (IO.FS.createDirAll dir)
  match made with
  | .error fault => return .error (.write dir fault)
  | .ok () =>
    let path := Files.join dir name
    return (← attempt (IO.FS.writeFile path text)).mapError fun fault => .write path fault

/-- Prints what a run ends with, and answers its exit code. -/
def conclude (outcome : Outcome) : IO UInt32 := do
  IO.print outcome.stdout
  if let some report := outcome.report then IO.eprintln ("Error: " ++ report)
  return outcome.exitCode.toUInt32

/-- Prints reports as far as the options ask for them. -/
def showEvents (options : Options) (events : List Event) : IO Unit := do
  for event in events do
    if event.level.isShown options.verbosity then IO.eprintln event.render

/-- Runs the program with options. -/
def perform (options : Options) : IO UInt32 := do
  let contents ← attempt (IO.FS.readBinFile options.manifest)
  if let .ok manifest := Manifest.ofFile options.manifest contents then
    showEvents options manifest.events
  match options.plan contents with
  | .finish outcome => conclude outcome
  | .store generator feed dir =>
    let (result, documents) := generator.run Sources.sink feed []
    for (name, text) in documents do
      if let .error error ← store dir name text then
        return ← conclude (options.afterStore (.error error))
    let delivery text := some (Files.sinkEvents dir generator.fileName text)
    showEvents options (generator.runEvents delivery feed)
    conclude (options.afterStore result)

end SlotArray

/-- The program. -/
def main (arguments : List String) : IO UInt32 := do
  let inherited ← IO.getEnv SlotArray.CommandLine.outDirVariable
  match SlotArray.CommandLine.parse inherited arguments with
  | .ok .version => SlotArray.conclude (.success SlotArray.CommandLine.versionText)
  | .ok .help => SlotArray.conclude (.success (SlotArray.CommandLine.helpText inherited))
  | .ok (.run options) => SlotArray.perform options
  | .error error =>
    IO.eprintln ("error: " ++ error.message)
    return 2
