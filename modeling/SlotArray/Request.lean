import SlotArray.ModulePath

/-! Validated instructions to generate one container each. -/
namespace SlotArray

/-- The number of slots of a container: 1 to 255. -/
structure SlotCount where
  val : Nat
  pos : 0 < val := by omega
  le : val ≤ 255 := by omega
deriving DecidableEq, Repr

/-- A number of slots, if the number is one. -/
def SlotCount.ofNat? (n : Nat) : Option SlotCount :=
  if h : 0 < n ∧ n ≤ 255 then some ⟨n, h.1, h.2⟩ else none

/-- One container to generate. -/
structure Request where
  name : String
  home : ModulePath
  size : SlotCount
deriving DecidableEq, Repr

/-- The container's name behind the path of its module. -/
def Request.qualifiedName (request : Request) : String :=
  if request.home.isRoot then request.name
  else request.home.display ++ "::" ++ request.name

/-- Whether two requests are for the same name in the same module. -/
def Request.collides (left right : Request) : Bool :=
  left.home = right.home && left.name = right.name

theorem SlotCount.ofNat?_val (size : SlotCount) : SlotCount.ofNat? size.val = some size := by
  simp [SlotCount.ofNat?, size.pos, size.le]

end SlotArray
