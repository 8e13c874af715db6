import SlotArray.Fault

/-! The command line: options, one manifest, and an environment variable. -/
namespace SlotArray

/-- What a run of the program is asked to do. -/
structure Options where
  manifest : String
  outDir : Option String
  jobs : Option Nat
  toStdout : Bool
  verbosity : Nat
deriving DecidableEq, Repr

/-- What a command line asks for. -/
inductive Command where
  | run (options : Options)
  | version
  | help
deriving DecidableEq, Repr

/-- Why a command line asks for nothing. -/
inductive UsageError where
  | unknownOption (text : String)
  | missingValue (option : String)
  | emptyValue (option : String)
  | unexpectedValue (option : String)
  | invalidValue (option value : String)
  | repeated (option : String)
  | conflict
deriving DecidableEq, Repr

/-- How the message about a wrong command line begins. -/
def UsageError.message : UsageError → String
  | .unknownOption text => "unexpected argument '" ++ text ++ "' found"
  | .missingValue option => "a value is required for '" ++ option ++ "' but none was supplied"
  | .emptyValue option => "a value is required for '" ++ option ++ "' but none was supplied"
  | .unexpectedValue option => "unexpected value for '" ++ option ++ "' found"
  | .invalidValue option value => "invalid value '" ++ value ++ "' for '" ++ option ++ "'"
  | .repeated option => "the argument '" ++ option ++ "' cannot be used multiple times"
  | .conflict => "the argument '--stdout' cannot be used with '--out-dir'"

namespace CommandLine

/-- The manifest when the command line names none. -/
def defaultManifest : String := "StructArrays.toml"

/-- The environment variable that names the output directory. -/
def outDirVariable : String := "STRUCT_ARRAY_OUT_DIR"

/-- The options of the program. -/
inductive Flag where
  | outDir
  | jobs
  | stdout
  | verbose
  | help
  | version
deriving DecidableEq, Repr

def Flag.takesValue : Flag → Bool
  | .outDir | .jobs => true
  | _ => false

def Flag.long : Flag → String
  | .outDir => "--out-dir"
  | .jobs => "--jobs"
  | .stdout => "--stdout"
  | .verbose => "--verbose"
  | .help => "--help"
  | .version => "--version"

def Flag.ofLong? (name : String) : Option Flag :=
  [Flag.outDir, .jobs, .stdout, .verbose, .help, .version].find? fun flag => flag.long == name

def Flag.ofShort? : Char → Option Flag
  | 'o' => some .outDir
  | 'j' => some .jobs
  | 'v' => some .verbose
  | 'h' => some .help
  | 'V' => some .version
  | _ => none

/-- What has been read of a command line. -/
structure Seen where
  manifest : Option String
  outDir : Option String
  jobs : Option Nat
  toStdout : Bool
  verbosity : Nat
deriving DecidableEq, Repr

/-- Reading ends early where the version or help is asked for. -/
inductive Parsed where
  | seen (seen : Seen)
  | version
  | help
deriving DecidableEq, Repr

/-- Reads a number of jobs: digits, perhaps behind a plus, and in range. -/
def readJobs (value : String) : Option Nat :=
  let digits :=
    match value.toList with
    | '+' :: rest => rest
    | text => text
  if digits.isEmpty || !digits.all Char.isDigit then none
  else
    let jobs := digits.foldl (fun value c => value * 10 + (c.toNat - '0'.toNat)) 0
    if 1 ≤ jobs ∧ jobs ≤ maxWorkers then some jobs else none

/-- Takes an option with its value. -/
def Seen.setValue (seen : Seen) (flag : Flag) (value : String) : Except UsageError Seen :=
  match flag with
  | .outDir =>
    if seen.outDir.isSome then .error (.repeated flag.long)
    else if value.isEmpty then .error (.emptyValue flag.long)
    else .ok { seen with outDir := some value }
  | .jobs =>
    if seen.jobs.isSome then .error (.repeated flag.long)
    else
      match readJobs value with
      | some jobs => .ok { seen with jobs := some jobs }
      | none => .error (.invalidValue flag.long value)
  | _ => .error (.unexpectedValue flag.long)

/-- Takes an option without a value. -/
def Seen.setFlag (seen : Seen) (flag : Flag) : Except UsageError Parsed :=
  match flag with
  | .stdout =>
    if seen.toStdout then .error (.repeated flag.long)
    else .ok (.seen { seen with toStdout := true })
  | .verbose => .ok (.seen { seen with verbosity := seen.verbosity + 1 })
  | .version => .ok .version
  | .help => .ok .help
  | _ => .error (.missingValue flag.long)

/-- Takes the manifest. -/
def Seen.setManifest (seen : Seen) (path : String) : Except UsageError Seen :=
  if seen.manifest.isSome then .error (.unexpectedValue path)
  else if path.isEmpty then .error (.emptyValue "MANIFEST")
  else .ok { seen with manifest := some path }

/-- What came of the short options in one argument: all are taken, or the last one still
needs its value. -/
inductive Cluster where
  | done (outcome : Parsed)
  | needsValue (seen : Seen) (flag : Flag)
deriving DecidableEq, Repr

/-- Takes short options that stand together. The rest behind one with a value is its value. -/
def readCluster (seen : Seen) : List Char → Except UsageError Cluster
  | [] => .ok (.done (.seen seen))
  | c :: rest =>
    match Flag.ofShort? c with
    | none => .error (.unknownOption (String.ofList ['-', c]))
    | some flag =>
      if flag.takesValue then
        match rest with
        | [] => .ok (.needsValue seen flag)
        | '=' :: value => (seen.setValue flag (String.ofList value)).map (.done ∘ .seen)
        | value => (seen.setValue flag (String.ofList value)).map (.done ∘ .seen)
      else
        match seen.setFlag flag with
        | .error error => .error error
        | .ok (.seen seen) => readCluster seen rest
        | .ok outcome => .ok (.done outcome)

/-- Whether an argument looks like an option, so that it is no option's value. -/
def looksLikeOption (argument : String) : Bool :=
  match argument.toList with
  | '-' :: _ :: _ => true
  | _ => false

/-- The name and the value of a long option. -/
def splitLong (argument : String) : String × Option String :=
  let chars := argument.toList
  match chars.dropWhile (· != '=') with
  | _ :: value => (String.ofList (chars.takeWhile (· != '=')), some (String.ofList value))
  | [] => (argument, none)

/-- Reads arguments. `pending` is an option that waits for its value. -/
def read (seen : Seen) (pending : Option Flag) : List String → Except UsageError Parsed
  | [] =>
    match pending with
    | some flag => .error (.missingValue flag.long)
    | none => .ok (.seen seen)
  | argument :: rest =>
    match pending with
    | some flag =>
      if looksLikeOption argument then .error (.missingValue flag.long)
      else
        match seen.setValue flag argument with
        | .ok seen => read seen none rest
        | .error error => .error error
    | none =>
      match argument.toList with
      | ['-', '-'] => (rest.foldlM Seen.setManifest seen).map .seen
      | '-' :: '-' :: _ =>
        match splitLong argument with
        | (name, value) =>
          match Flag.ofLong? name, value with
          | none, _ => .error (.unknownOption argument)
          | some flag, some value =>
            match seen.setValue flag value with
            | .ok seen => read seen none rest
            | .error error => .error error
          | some flag, none =>
            if flag.takesValue then read seen (some flag) rest
            else
              match seen.setFlag flag with
              | .ok (.seen seen) => read seen none rest
              | outcome => outcome
      | '-' :: c :: cluster =>
        match readCluster seen (c :: cluster) with
        | .ok (.done (.seen seen)) => read seen none rest
        | .ok (.done outcome) => .ok outcome
        | .ok (.needsValue seen flag) => read seen (some flag) rest
        | .error error => .error error
      | _ =>
        match seen.setManifest argument with
        | .ok seen => read seen none rest
        | .error error => .error error

/-- What a command line asks for. `inherited` is the environment's output directory: it counts
where no option names one, and may be no more empty than that. -/
def parse (inherited : Option String) (arguments : List String) : Except UsageError Command :=
  match read ⟨none, none, none, false, 0⟩ none arguments with
  | .error error => .error error
  | .ok .version => .ok .version
  | .ok .help => .ok .help
  | .ok (.seen seen) =>
    let outDir := seen.outDir <|> inherited
    if outDir = some "" then .error (.emptyValue outDirVariable)
    else if seen.toStdout && outDir.isSome then .error .conflict
    else
      .ok (.run ⟨seen.manifest.getD defaultManifest, outDir, seen.jobs, seen.toStdout,
        seen.verbosity⟩)

/-- What the program prints when asked for its version. -/
def versionText : String := "struct-array-gen 0.1.0\n"

end CommandLine
end SlotArray
