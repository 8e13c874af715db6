import SlotArray.Container

/-! Walking over the slots of a container from both ends. -/
namespace SlotArray

/-- A walk over the slots from `front` up to, but not including, `back`. -/
structure Cursor (σ : Type) where
  array : σ
  front : Nat
  back : Nat
deriving DecidableEq, Repr

namespace Cursor
variable {σ α : Type}

/-- A walk over all slots. -/
def start (access : Access σ α) (array : σ) : Cursor σ := ⟨array, 0, access.length⟩

/-- The number of slots still to visit. -/
def remaining (cursor : Cursor σ) : Nat := cursor.back - cursor.front

/-- How many slots are left at least, and at most as far as that is known. -/
def bounds (cursor : Cursor σ) : Nat × Option Nat := (cursor.remaining, some cursor.remaining)

/-- Visits the next slot from the front. A slot that answers nothing is visited all the same. -/
def next (access : Access σ α) (cursor : Cursor σ) : Option α × Cursor σ :=
  if cursor.back ≤ cursor.front then (none, cursor)
  else (access.get cursor.array cursor.front, { cursor with front := cursor.front + 1 })

/-- Visits the next slot from the back. -/
def nextBack (access : Access σ α) (cursor : Cursor σ) : Option α × Cursor σ :=
  if cursor.back ≤ cursor.front then (none, cursor)
  else (access.get cursor.array (cursor.back - 1), { cursor with back := cursor.back - 1 })

/-- Skips some elements with a way to step, then takes one. Skipping ends at the first slot that
answers nothing. -/
def skip (step : Cursor σ → Option α × Cursor σ) : Nat → Cursor σ → Option α × Cursor σ
  | 0, cursor => step cursor
  | n + 1, cursor =>
    match step cursor with
    | (some _, cursor) => skip step n cursor
    | (none, cursor) => (none, cursor)

/-- The elements up to the first slot that answers nothing, in at most `n` steps. -/
def collect (step : Cursor σ → Option α × Cursor σ) : Nat → Cursor σ → List α
  | 0, _ => []
  | n + 1, cursor =>
    match step cursor with
    | (some value, cursor) => value :: collect step n cursor
    | (none, _) => []

/-- The elements from the front to the back. -/
def toList (access : Access σ α) (cursor : Cursor σ) : List α :=
  collect (next access) cursor.remaining cursor

/-- The elements from the back to the front. -/
def toListBack (access : Access σ α) (cursor : Cursor σ) : List α :=
  collect (nextBack access) cursor.remaining cursor

end Cursor

/-- Copies of the elements in the order of their slots. -/
def Access.toList {σ α : Type} (access : Access σ α) (array : σ) : List α :=
  (Cursor.start access array).toList access

end SlotArray
