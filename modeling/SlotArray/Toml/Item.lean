import SlotArray.Toml.Value

/-! The tables of a TOML document while it is being read.

A table can come about in three ways, and which one decides what may still be added to
it: a header closes it, a header below it leaves it open for its own header, and dotted
keys leave it open for more of them. -/
namespace SlotArray.Toml

/-- What made a table. -/
inductive Origin where
  | header
  /-- The header of a table inside it. -/
  | implied
  /-- Dotted keys. -/
  | dotted
deriving DecidableEq, Repr

/-- What a key stands for. -/
inductive Item where
  | value (value : Value)
  | table (origin : Origin) (entries : List (String × Item))
  /-- Tables with one header each, the last one still open. -/
  | elements (tables : List (List (String × Item)))

/-- The items of a table, in the order they came. -/
abbrev Items := List (String × Item)

namespace Items

/-- The item of a key. -/
def get? (items : Items) (key : String) : Option Item :=
  (items.find? fun entry => entry.1 == key).map Prod.snd

/-- The items with a key's item replaced, or added at the end. -/
def set (items : Items) (key : String) (item : Item) : Items :=
  if items.any fun entry => entry.1 == key then
    items.map fun entry => if entry.1 == key then (key, item) else entry
  else items ++ [(key, item)]

/-- Applies a change to the last table of an array. -/
def changeLast (change : Items → Option Items) (tables : List Items) : Option (List Items) :=
  match tables.getLast? with
  | some last => (change last).map fun last => tables.dropLast ++ [last]
  | none => none

/-- Adds a pair. Its dotted key may pass through tables that have no header, but what it adds
to has to be the table at hand or one that dotted keys made. -/
def addPair (isOpen : Bool) (value : Value) : Key → Items → Option Items
  | [], _ => none
  | [last], items =>
    if isOpen && (items.get? last).isNone then some (items.set last (.value value)) else none
  | part :: rest, items =>
    match items.get? part with
    | none => (addPair true value rest []).map fun inner => items.set part (.table .dotted inner)
    | some (.value _) => none
    | some (.elements tables) =>
      (changeLast (addPair false value rest) tables).map fun tables =>
        items.set part (.elements tables)
    | some (.table origin inner) =>
      if origin = .header then none
      else
        (addPair (origin = .dotted) value rest inner).map fun inner =>
          items.set part (.table origin inner)

/-- Adds pairs one after another. -/
def addPairs (pairs : List (Key × Value)) (items : Items) : Option Items :=
  pairs.foldlM (fun items pair => addPair true pair.2 pair.1 items) items

/-- Changes the table that the parts of a header before its last one lead to. -/
def descend (change : String → Items → Option Items) : Key → Items → Option Items
  | [], _ => none
  | [last], items => change last items
  | part :: rest, items =>
    match items.get? part with
    | none => (descend change rest []).map fun inner => items.set part (.table .implied inner)
    | some (.value _) => none
    | some (.elements tables) =>
      (changeLast (descend change rest) tables).map fun tables => items.set part (.elements tables)
    | some (.table origin inner) =>
      (descend change rest inner).map fun inner => items.set part (.table origin inner)

/-- Adds a table with a header and the pairs below it. -/
def addTable (header : Key) (pairs : List (Key × Value)) : Items → Option Items :=
  descend (fun last items =>
    let found? :=
      match items.get? last with
      | none => some []
      | some (.table .implied inner) => some inner
      | some _ => none
    match found? with
    | some inner => (addPairs pairs inner).map fun inner => items.set last (.table .header inner)
    | none => none) header

/-- Adds one more table to an array of tables, with the pairs below its header. -/
def addElement (header : Key) (pairs : List (Key × Value)) : Items → Option Items :=
  descend (fun last items =>
    let found? :=
      match items.get? last with
      | none => some []
      | some (.elements tables) => some tables
      | some _ => none
    match found? with
    | some tables =>
      (addPairs pairs []).map fun inner => items.set last (.elements (tables ++ [inner]))
    | none => none) header

end Items

mutual
/-- An item as a value. -/
def Item.toValue : Item → Value
  | .value inner => inner
  | .table _ entries => .table (Item.toTable entries)
  | .elements tables => .array (Item.toTables tables)

/-- Items as a table. -/
def Item.toTable : List (String × Item) → Table
  | [] => []
  | (key, item) :: rest => Table.insert key item.toValue (Item.toTable rest)

/-- An array of tables as values. -/
def Item.toTables : List (List (String × Item)) → List Value
  | [] => []
  | entries :: rest => .table (Item.toTable entries) :: Item.toTables rest
end

end SlotArray.Toml
