/-! The lines of a definition that come once per slot.

Slot `i` lives in the field `_valuei`. Every function here gives the lines for slots
`0 .. size - 1` in order, without their line feeds; a `match` has one more, for all the
other indices. -/
namespace SlotArray.Definition

/-- The field of a slot. -/
def slotField (i : Nat) : String := "_value" ++ toString i

/-- The fields of the type. -/
def fieldLines (size : Nat) (element : String) : List String :=
  (List.range size).map fun i => "    " ++ slotField i ++ ": " ++ element ++ ","

/-- The fields of a container under construction, each from one call of `f`. -/
def fromFnLines (size : Nat) : List String :=
  (List.range size).map fun i =>
    "            " ++ slotField i ++ ": f(" ++ toString i ++ "),"

/-- The arms that answer a shared reference. -/
def getArms (size : Nat) : List String :=
  (List.range size).map (fun i =>
    "            " ++ toString i ++ " => ::core::option::Option::Some(&self." ++ slotField i ++
      "),") ++
    ["            _ => ::core::option::Option::None,"]

/-- The arms that answer a mutable reference. -/
def getMutArms (size : Nat) : List String :=
  (List.range size).map (fun i =>
    "            " ++ toString i ++ " => ::core::option::Option::Some(&mut self." ++
      slotField i ++ "),") ++
    ["            _ => ::core::option::Option::None,"]

/-- The arms that store a value and answer the one before. -/
def setArms (size : Nat) : List String :=
  (List.range size).map (fun i =>
    "            " ++ toString i ++
      " => ::core::result::Result::Ok(::core::mem::replace(&mut self." ++ slotField i ++
      ", value)),") ++
    ["            _ => ::core::result::Result::Err(::struct_array::IndexOutOfRange::new(index, " ++
      toString size ++ ")),"]

/-- The calls that list the slots for debugging. -/
def debugLines (size : Nat) : List String :=
  (List.range size).map fun i => "            .entry(&self." ++ slotField i ++ ")"

/-- The slots as a comma-separated list, each with something behind it. -/
def slotList (size : Nat) (after : String) : String :=
  ", ".intercalate ((List.range size).map fun i => "self." ++ slotField i ++ after)

end SlotArray.Definition
