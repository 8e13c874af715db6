/-! Readers: a reader takes what it needs from the front of a list, or fails and takes
nothing. -/
namespace SlotArray

/-- A computation that reads from the front of a list and may fail. -/
abbrev Reading (σ : Type) := StateT (List σ) Option

namespace Reading
variable {σ α β : Type}

/-- Takes the next item if it passes a test. -/
def next (test : σ → Bool) : Reading σ σ
  | item :: rest => if test item then some (item, rest) else none
  | [] => none

/-- Looks at what is left without taking it. -/
def peek : Reading σ (List σ) := fun rest => some (rest, rest)

/-- Takes items as long as they pass a test. -/
def takeWhile (test : σ → Bool) : Reading σ (List σ) :=
  fun rest => some (rest.takeWhile test, rest.dropWhile test)

/-- Succeeds when nothing is left. -/
def atEnd : Reading σ Unit
  | [] => some ((), [])
  | _ :: _ => none

/-- What a reader finds, or nothing if it fails. -/
def maybe (reader : Reading σ α) : Reading σ (Option α) :=
  fun rest =>
    match reader rest with
    | some (value, rest) => some (some value, rest)
    | none => some (none, rest)

/-- Runs a reader up to `n` times, until it fails. -/
def upTo (reader : Reading σ α) : Nat → Reading σ (List α)
  | 0 => pure []
  | n + 1 => fun rest =>
    match reader rest with
    | some (value, rest) =>
      match upTo reader n rest with
      | some (values, rest) => some (value :: values, rest)
      | none => none
    | none => some ([], rest)

/-- Runs a reader until it fails. It is run no more often than there are items, so one that
takes nothing does no harm. -/
def many (reader : Reading σ α) : Reading σ (List α) :=
  fun rest => upTo reader rest.length rest

/-- One or more things with separators between them. -/
def separated (reader : Reading σ α) (separator : Reading σ β) : Reading σ (List α) := do
  let first ← reader
  let rest ← many (separator *> reader)
  return first :: rest

/-- The value of a reader that takes everything. -/
def whole (reader : Reading σ α) (items : List σ) : Option α :=
  match reader items with
  | some (value, []) => some value
  | _ => none

/-- A reader has a value for everything exactly when it leaves nothing. -/
theorem whole_eq_some_iff (reader : Reading σ α) (items : List σ) (value : α) :
    whole reader items = some value ↔ reader items = some (value, []) := by
  unfold whole
  split
  · rename_i found
    simp [found]
  · rename_i other
    constructor
    · intro impossible
      cases impossible
    · intro found
      exact absurd found (other value)

end Reading
end SlotArray
