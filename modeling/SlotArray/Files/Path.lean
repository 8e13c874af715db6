/-! Paths as text.

A path is cut at its slashes. Empty parts say nothing, and neither does a single point
unless a relative path begins with it. -/
namespace SlotArray.Files

/-- The parts of a path between its slashes. -/
def pathParts (path : List Char) : List (List Char) :=
  match path with
  | [] => [[]]
  | c :: rest =>
    if c = '/' then [] :: pathParts rest
    else
      match pathParts rest with
      | part :: parts => (c :: part) :: parts
      | [] => [[c]]

/-- Whether a path starts at the root. -/
def isAbsolute (path : String) : Bool :=
  path.toList.head? = some '/'

/-- A path behind another one. An absolute path replaces it, and one slash stands between. -/
def join (base path : String) : String :=
  if isAbsolute path then path
  else if base.isEmpty || base.toList.getLast? = some '/' then base ++ path
  else base ++ "/" ++ path

/-- Drops the parts at the end that say nothing; the parts come last one first. `body` is the
number of parts at the beginning that always count. -/
def dropSilent (body : Nat) : List (List Char) → List (List Char)
  | [] => []
  | part :: rest =>
    if (part.isEmpty || part == ['.']) && body < rest.length + 1 then dropSilent body rest
    else part :: rest

/-- The path without its last part, nothing for an empty path and for the root. -/
def parent? (path : String) : Option String :=
  let parts := pathParts path.toList
  let rooted := isAbsolute path
  -- The empty part before the slash of the root stays; so does the first part of a relative path.
  let shown := dropSilent 1 parts.reverse
  match shown with
  | [] => none
  | [only] => if rooted || only.isEmpty then none else some ""
  | _ :: rest =>
    let kept := dropSilent 1 rest
    if rooted && kept.length ≤ 1 then some "/"
    else some (String.ofList (['/'].intercalate kept.reverse))

example : parent? "sub//m.toml" = some "sub" := by decide

example : parent? "./m.toml" = some "." := by decide

example : parent? "m.toml" = some "" := by decide

example : parent? "/m" = some "/" := by decide

end SlotArray.Files
