import SlotArray.Event
import SlotArray.Extraction

/-! The requests of a feed of declarations. -/
namespace SlotArray

/-- The requests of a feed in its order. The first declaration that is faulty, or asks for a
type that an earlier one asked for, fails it all. -/
def discover (shape : Shape) (feed : List Occurrence) : Except PassError (List Request) :=
  go [] feed
where
  /-- `accepted` holds the requests found so far, the last one first. -/
  go (accepted : List Request) : List Occurrence → Except PassError (List Request)
    | [] => .ok accepted.reverse
    | occurrence :: rest =>
      match occurrence.request? shape with
      | .error error => .error (.schema error)
      | .ok none => go accepted rest
      | .ok (some request) =>
        if accepted.any request.collides then .error (.duplicateType request.qualifiedName)
        else go (request :: accepted) rest

/-- What is reported about a declaration that asks for nothing. -/
def Occurrence.events (shape : Shape) (occurrence : Occurrence) : List Event :=
  match occurrence.tag?, occurrence.request? shape with
  | none, _ =>
    [⟨.debug, "no struct_array attribute", [("declaration", occurrence.declaration)]⟩]
  | some _, .ok none =>
    [⟨.debug, "size is 0, generation disabled", [("declaration", occurrence.declaration)]⟩]
  | some _, _ => []

/-- What is reported about a feed: each declaration that is passed over, and the totals unless
discovery fails. -/
def discoveryEvents (shape : Shape) (feed : List Occurrence) : List Event :=
  go [] feed
where
  go (accepted : List Request) : List Occurrence → List Event
    | [] =>
      [⟨.debug, "discovery finished",
        [("found", toString feed.length), ("requests", toString accepted.length)]⟩]
    | occurrence :: rest =>
      occurrence.events shape ++
        match occurrence.request? shape with
        | .error _ => []
        | .ok none =>
          ⟨.debug, "skipped", [("declaration", occurrence.declaration)]⟩ :: go accepted rest
        | .ok (some request) =>
          if accepted.any request.collides then [] else go (request :: accepted) rest

end SlotArray
