/-! What a pass reports about its progress. -/
namespace SlotArray

inductive Level where
  | trace
  | debug
  | info
  | warn
deriving DecidableEq, Repr

def Level.name : Level → String
  | .trace => "TRACE"
  | .debug => "DEBUG"
  | .info => "INFO"
  | .warn => "WARN"

/-- Whether reports of a level are shown; each step of verbosity shows one level more. -/
def Level.isShown (level : Level) (verbosity : Nat) : Bool :=
  match level with
  | .warn | .info => true
  | .debug => 1 ≤ verbosity
  | .trace => 2 ≤ verbosity

/-- One report: a message and named values. -/
structure Event where
  level : Level
  message : String
  fields : List (String × String)
deriving DecidableEq, Repr

/-- A report on one line. -/
def Event.render (event : Event) : String :=
  event.level.name ++ " " ++ event.message ++
    String.join (event.fields.map fun field => " " ++ field.1 ++ "=" ++ field.2)

end SlotArray
