/-! Containers of a fixed number of slots, and what every such container can do. -/
namespace SlotArray

/-- An index with no slot behind it. -/
structure IndexOutOfRange where
  index : Nat
  length : Nat
deriving DecidableEq, Repr

def IndexOutOfRange.message (error : IndexOutOfRange) : String :=
  "index out of range: the length is " ++ toString error.length ++ " but the index is " ++
    toString error.index

/-- What a kind of container says about itself; all else follows from it. -/
structure Access (σ α : Type) where
  /-- The number of slots. -/
  length : Nat
  /-- The element in a slot. -/
  get : σ → Nat → Option α
  /-- A slot lent for writing: its element, and the container for every new one. -/
  lend : σ → Nat → Option (α × (α → σ))
  /-- All elements in the order of their slots. -/
  intoList : σ → List α

namespace Access
variable {σ α : Type}

/-- Whether there are no slots. -/
def isEmpty (access : Access σ α) : Bool := access.length == 0

/-- Stores an element and answers the one it replaces. -/
def set (access : Access σ α) (array : σ) (index : Nat) (value : α) :
    Except IndexOutOfRange (α × σ) :=
  match access.lend array index with
  | some (old, write) => .ok (old, write value)
  | none => .error ⟨index, access.length⟩

end Access

/-- A generated container: a slot for each index below `n`. -/
structure Container (α : Type) (n : Nat) where
  slots : Vector α n
deriving DecidableEq, Repr

namespace Container
variable {α : Type} {n : Nat}

/-- The container with one element in all slots. -/
def fill (value : α) : Container α n := ⟨Vector.replicate n value⟩

/-- Fills the slots in the order of their indices, with one call of `f` for each. -/
def fromFnM {m : Type → Type} [Monad m] (f : Nat → m α) : m (Container α n) := do
  let slots ← Vector.ofFnM fun i : Fin n => f i.val
  return ⟨slots⟩

/-- The element in a slot. -/
def get (array : Container α n) (index : Nat) : Option α := array.slots[index]?

/-- A slot lent for writing. -/
def lend (array : Container α n) (index : Nat) : Option (α × (α → Container α n)) :=
  if h : index < n then
    some (array.slots[index], fun value => ⟨array.slots.set index value⟩)
  else none

/-- Stores an element and answers the one it replaces. -/
def set (array : Container α n) (index : Nat) (value : α) :
    Except IndexOutOfRange (α × Container α n) :=
  if h : index < n then .ok (array.slots[index], ⟨array.slots.set index value⟩)
  else .error ⟨index, n⟩

/-- The element in a slot that has to be there. -/
def index (array : Container α n) (index : Nat) : Except IndexOutOfRange α :=
  match array.get index with
  | some value => .ok value
  | none => .error ⟨index, n⟩

/-- Stores an element in a slot that has to be there. -/
def indexSet (array : Container α n) (index : Nat) (value : α) :
    Except IndexOutOfRange (Container α n) :=
  match array.lend index with
  | some (_, write) => .ok (write value)
  | none => .error ⟨index, n⟩

/-- All elements in the order of their slots. -/
def toList (array : Container α n) : List α := array.slots.toList

/-- What a generated container says about itself. -/
def access : Access (Container α n) α where
  length := n
  get := get
  lend := lend
  intoList := toList

/-- The elements on one line, or each on a line of its own. -/
def debug (display : α → String) (array : Container α n) : String :=
  "[" ++ ", ".intercalate (array.toList.map display) ++ "]"

def debugLines (display : α → String) (array : Container α n) : String :=
  "[\n" ++ String.join (array.toList.map fun value => "    " ++ display value ++ ",\n") ++ "]"

/-- The list of a container holds what its slots hold, and nothing more. -/
theorem getElem?_toList (array : Container α n) (index : Nat) :
    array.toList[index]? = array.get index := by
  simp [toList, get]

theorem length_toList (array : Container α n) : array.toList.length = n := by
  simp [toList]

/-- Every slot of a filled container holds the element, and there are no slots beyond. -/
theorem get_fill (value : α) (index : Nat) :
    (fill value : Container α n).get index = if index < n then some value else none := by
  simp only [fill, get]
  split <;> simp_all

/-- Storing succeeds exactly below `n`. -/
theorem set_eq_error_iff (array : Container α n) (index : Nat) (value : α)
    (error : IndexOutOfRange) :
    array.set index value = .error error ↔ n ≤ index ∧ error = ⟨index, n⟩ := by
  unfold set
  split
  · simp; omega
  · simp [eq_comm]; omega

/-- Storing answers the old element and changes one slot. -/
theorem get_of_set {array after : Container α n} {index : Nat} {value old : α}
    (stored : array.set index value = .ok (old, after)) (other : Nat) :
    array.get index = some old ∧
      after.get other = if other = index then some value else array.get other := by
  unfold set at stored
  split at stored
  · rename_i inside
    cases stored
    refine ⟨by simp [get, inside], ?_⟩
    by_cases same : index = other
    · subst same
      simp [get, inside]
    · simp [get, same, Ne.symm same]
  · cases stored

end Container
end SlotArray
