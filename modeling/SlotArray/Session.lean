import SlotArray.Manifest

/-! Sessions: one generator and the documents it makes, step by step. -/
namespace SlotArray

/-- A step of a session. -/
inductive SessionStep where
  | workers (count : Nat)
  | extraDerive (path : String)
  | fileName (name : String)
  /-- Replaces the settings by those of a manifest. -/
  | configure (text : String)
  | run (feed : List Occurrence)
  | generate (feed : List Occurrence)
deriving DecidableEq, Repr

/-- What a step answers. -/
inductive StepAnswer where
  | done
  | rejected (error : PassError)
  | ran (result : Except PassError Nat) (sources : Sources)
  | generated (result : Except PassError (Option String))

/-- The state of a session. -/
structure Session where
  generator : Generator
  sources : Sources
deriving DecidableEq, Repr

namespace Session

def initial : Session := ⟨.initial, []⟩

/-- What messages call the manifests of a session. -/
def origin : String := "session.toml"

/-- Takes one step. -/
def step (session : Session) : SessionStep → StepAnswer × Session
  | .workers count => (.done, { session with generator := session.generator.withWorkers count })
  | .extraDerive path =>
    (.done, { session with generator := session.generator.withExtraDerive path })
  | .fileName name => (.done, { session with generator := session.generator.withFileName name })
  | .configure text =>
    match Manifest.parse text origin with
    | .error error => (.rejected error, session)
    | .ok manifest => (.done, { session with generator := .ofConfig manifest.config })
  | .run feed =>
    let (result, sources) := session.generator.run Sources.sink feed session.sources
    (.ran result sources, { session with sources })
  | .generate feed => (.generated (session.generator.generate feed), session)

/-- What a step reports. -/
def stepEvents (session : Session) : SessionStep → List Event
  | .run feed => session.generator.runEvents (fun _ => some []) feed
  | .generate feed => session.generator.generateEvents feed
  | _ => []

/-- Takes steps one after another, with their answers and reports in order. -/
def play (session : Session) : List SessionStep → List StepAnswer × List Event × Session
  | [] => ([], [], session)
  | step :: rest =>
    let (answer, after) := session.step step
    let (answers, events, last) := play after rest
    (answer :: answers, session.stepEvents step ++ events, last)

end Session
end SlotArray
