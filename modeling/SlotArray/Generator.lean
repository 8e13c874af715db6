import SlotArray.Discovery
import SlotArray.Pool

/-! A generation pass: from a feed of declarations to a document, and to where it goes. -/
namespace SlotArray

/-- The default name of the generated document. -/
def outputFileName : String := "struct_array.g.rs"

/-- The settings of a pass. -/
structure Generator where
  extraDerives : List String
  workers : Nat
  fileName : String
deriving DecidableEq, Repr

/-- A place for finished documents: it takes a name and a text, and may refuse. -/
abbrev Sink (σ : Type) := String → String → σ → Except PassError Unit × σ

namespace Generator

/-- The settings before any are made. -/
def initial : Generator := ⟨[], 1, outputFileName⟩

def withWorkers (generator : Generator) (workers : Nat) : Generator :=
  { generator with workers }

def withExtraDerive (generator : Generator) (path : String) : Generator :=
  { generator with extraDerives := generator.extraDerives ++ [path] }

def withFileName (generator : Generator) (fileName : String) : Generator :=
  { generator with fileName }

/-- The document of a feed, nothing when it requests nothing. -/
def document (generator : Generator) (feed : List Occurrence) :
    Except PassError (Option Document) := do
  let requests ← discover .named feed
  if requests.isEmpty then return none
  else return some (.ofRequests generator.extraDerives requests)

/-- The text of a feed's document, nothing when it requests nothing. -/
def generate (generator : Generator) (feed : List Occurrence) :
    Except PassError (Option String) :=
  (generator.document feed).map fun document? => document?.map Document.render

/-- Hands the document of a feed to a sink and answers how many types it has. A feed that
requests nothing or fails leaves the sink alone. -/
def run {σ : Type} (generator : Generator) (sink : Sink σ) (feed : List Occurrence) (state : σ) :
    Except PassError Nat × σ :=
  match generator.document feed with
  | .error error => (.error error, state)
  | .ok none => (.ok 0, state)
  | .ok (some document) =>
    match sink generator.fileName document.render state with
    | (.ok (), state) => (.ok document.size, state)
    | (.error error, state) => (.error error, state)

/-- What the pool reports about requests. -/
def poolEvents (generator : Generator) (requests : List Request) : List Event :=
  ⟨.debug, "starting synthesis pool",
      [("requested", toString generator.workers),
        ("threads", toString (poolSize generator.workers requests.length)),
        ("jobs", toString requests.length)]⟩ ::
    requests.map fun request =>
      ⟨.trace, "synthesized struct array",
        [("ty", request.qualifiedName),
          ("bytes", toString (request.render generator.extraDerives).utf8ByteSize)]⟩

/-- What is reported while a feed's document is made: `nothing` says that there is none. -/
def documentEvents (generator : Generator) (nothing : Event) (feed : List Occurrence) :
    List Event :=
  discoveryEvents .named feed ++
    match discover .named feed with
    | .error _ => []
    | .ok requests =>
      if requests.isEmpty then [nothing] else generator.poolEvents requests

/-- What is reported while a feed's text is made. -/
def generateEvents (generator : Generator) (feed : List Occurrence) : List Event :=
  generator.documentEvents ⟨.debug, "no struct arrays requested", []⟩ feed

/-- What is reported while a feed's document is handed to a sink. `delivery` is what the sink
reports, or nothing if it refuses. -/
def runEvents (generator : Generator) (delivery : String → Option (List Event))
    (feed : List Occurrence) : List Event :=
  generator.documentEvents ⟨.info, "no struct arrays requested, nothing written", []⟩ feed ++
    match generator.document feed with
    | .ok (some document) =>
      match delivery document.render with
      | some events =>
        events ++
          [⟨.info, "generated struct arrays",
            [("types", toString document.size), ("file", generator.fileName)]⟩]
      | none => []
    | _ => []

end Generator

/-- Documents kept in memory, in the order they came. -/
abbrev Sources := List (String × String)

/-- Keeps a document in memory. -/
def Sources.sink : Sink Sources := fun name text sources => (.ok (), sources ++ [(name, text)])

end SlotArray
