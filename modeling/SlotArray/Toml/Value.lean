import SlotArray.Number.Binary64

/-! The values of a TOML document. -/
namespace SlotArray.Toml

/-- A key: its parts between the points. -/
abbrev Key := List String

inductive Value where
  | string (text : String)
  | integer (value : Int)
  | float (value : Binary64)
  | boolean (value : Bool)
  /-- A date, a time or both, in their standard form. -/
  | datetime (text : String)
  | array (items : List Value)
  | table (entries : List (String × Value))
deriving Repr

/-- A table: its entries in ascending order of their keys. -/
abbrev Table := List (String × Value)

/-- The value of a key. -/
def Table.get? (table : Table) (key : String) : Option Value :=
  (table.find? fun entry => entry.1 == key).map Prod.snd

/-- Puts an entry in its place. -/
def Table.insert (key : String) (value : Value) : Table → Table
  | [] => [(key, value)]
  | head :: rest =>
    if key < head.1 then (key, value) :: head :: rest else head :: Table.insert key value rest

/-- A new entry is found under its key. -/
theorem Table.get?_insert_self {table : Table} {key : String} (free : table.get? key = none)
    (value : Value) : (table.insert key value).get? key = some value := by
  induction table with
  | nil => simp [Table.insert, Table.get?]
  | cons head rest ih =>
    simp only [Table.get?, List.find?_cons] at free ih ⊢
    cases same : head.1 == key with
    | true => simp [same] at free
    | false =>
      simp only [same] at free
      simp only [Table.insert]
      split
      · simp
      · simp only [List.find?_cons, same]
        exact ih free

/-- Other keys are not touched. -/
theorem Table.get?_insert_of_ne (table : Table) {key other : String} (differ : other ≠ key)
    (value : Value) : (table.insert key value).get? other = table.get? other := by
  have apart : (key == other) = false := by simpa using Ne.symm differ
  induction table with
  | nil => simp [Table.insert, Table.get?, apart]
  | cons head rest ih =>
    simp only [Table.insert]
    split
    · simp [Table.get?, List.find?_cons, apart]
    · simp only [Table.get?, List.find?_cons] at ih ⊢
      cases head.1 == other
      · exact ih
      · rfl

/-- Adds a pair to a table whose values are all given in full. Its dotted key may pass through
any tables in it. -/
def Table.addPair (value : Value) : Key → Table → Option Table
  | [], _ => none
  | [last], table =>
    if (table.get? last).isNone then some (table.insert last value) else none
  | part :: rest, table =>
    match table.get? part with
    | none => (addPair value rest []).map fun inner => table.insert part (.table inner)
    | some (.table inner) =>
      (addPair value rest inner).map fun inner =>
        table.map fun entry => if entry.1 == part then (part, .table inner) else entry
    | some _ => none

/-- The key under which a date or time stands when it is taken for a table. -/
def datetimeKey : String := "$__toml_private_datetime"

/-- A value as a table; a date or time counts as one with a single entry. -/
def Value.table? : Value → Option Table
  | .table entries => some entries
  | .datetime text => some [(datetimeKey, .string text)]
  | _ => none

end SlotArray.Toml
