import SlotArray.Argument

/-! What can be wrong, and how it is said. -/
namespace SlotArray

/-- Why a tag's arguments ask for no container. -/
inductive SchemaFault where
  | argumentCount (expected found : Nat)
  | typeMismatch (index : Nat) (expected found : ArgumentKind)
  | sizeOutOfRange (value : Int)
  | invalidName (value : String)
  | invalidNamespace (value : String)
deriving DecidableEq, Repr

def SchemaFault.message : SchemaFault → String
  | .argumentCount expected found =>
    "expected " ++ toString expected ++ " positional arguments, found " ++ toString found
  | .typeMismatch index expected found =>
    "argument " ++ toString index ++ " must be " ++ expected.describe ++ ", found " ++
      found.describe
  | .sizeOutOfRange value =>
    "size " ++ toString value ++
      " does not fit in a byte; use 1..=255, or 0 to disable generation"
  | .invalidName value => "`" ++ value ++ "` is not a valid type name"
  | .invalidNamespace value => "`" ++ value ++ "` is not a valid namespace"

/-- A fault together with the declaration and the tag that have it. -/
structure SchemaError where
  declaration : String
  tag : String
  fault : SchemaFault
deriving DecidableEq, Repr

def SchemaError.message (error : SchemaError) : String :=
  "invalid #[" ++ error.tag ++ "] on `" ++ error.declaration ++ "`: " ++ error.fault.message

/-- Why a file could not be read or written. -/
inductive FileFault where
  | notFound
  | exists
  | notDirectory
  | isDirectory
  | nameTooLong
  | nulInName
  | notUnicode
  | denied
  | other (text : String)
deriving DecidableEq, Repr

def FileFault.message : FileFault → String
  | .notFound => "No such file or directory (os error 2)"
  | .denied => "Permission denied (os error 13)"
  | .exists => "File exists (os error 17)"
  | .notDirectory => "Not a directory (os error 20)"
  | .isDirectory => "Is a directory (os error 21)"
  | .nameTooLong => "File name too long (os error 36)"
  | .nulInName => "file name contained an unexpected NUL byte"
  | .notUnicode => "stream did not contain valid UTF-8"
  | .other text => text

/-- The largest number of threads a manifest may ask for. -/
def maxWorkers : Nat := 256

/-- Why a pass fails. -/
inductive PassError where
  | schema (error : SchemaError)
  | duplicateType (name : String)
  | read (path : String) (cause : FileFault)
  | write (path : String) (cause : FileFault)
  | manifest (path : String)
  | workerCount (path : String) (value : Nat)
deriving DecidableEq, Repr

/-- The message of an error, without its cause. -/
def PassError.message : PassError → String
  | .schema error => error.message
  | .duplicateType name => "struct array `" ++ name ++ "` is declared more than once"
  | .read path _ => "failed to read `" ++ path ++ "`"
  | .write path _ => "failed to write `" ++ path ++ "`"
  | .manifest path => "failed to parse manifest `" ++ path ++ "`"
  | .workerCount path value =>
    "invalid worker count " ++ toString value ++ " in `" ++ path ++ "`: expected 1..=" ++
      toString maxWorkers

/-- What lies behind an error, if it was a file. -/
def PassError.cause? : PassError → Option FileFault
  | .read _ cause => some cause
  | .write _ cause => some cause
  | _ => none

end SlotArray
