import Mathlib.Data.String.Basic
import SlotArray.Manifest

/-! Keys of a document that was read. In each of its tables, however deep, the entries stand in ascending
order of their keys, so no key is there twice. What readers find has this shape, adding a pair or a header
keeps it, and so the table of the whole document has it. -/
namespace SlotArray.Toml

section Replace
variable {α : Type} {key : String} {new : α} {entries : List (String × α)} {good : α → Prop}

/-- What is replaced leaves the keys as they are. -/
theorem keys_replace :
    (entries.map fun entry => if entry.1 == key then (key, new) else entry).map Prod.fst =
      entries.map Prod.fst := by
  rw [List.map_map]
  refine List.map_congr_left fun entry _ => ?_
  by_cases here : entry.1 = key
  · simp [here]
  · simp [here]

theorem forall_mem_replace (fits : good new) (each : ∀ entry ∈ entries, good entry.2) :
    ∀ entry ∈ entries.map fun entry => if entry.1 == key then (key, new) else entry, good entry.2 := by
  refine List.forall_mem_map.mpr fun entry mem => ?_
  split
  · exact fits
  · exact each entry mem

end Replace

/-! ## Values -/

/-- A value whose tables have their keys in ascending order, at any depth. -/
inductive Value.WellKeyed : Value → Prop where
  | string (text : String) : WellKeyed (.string text)
  | integer (value : Int) : WellKeyed (.integer value)
  | float (value : Binary64) : WellKeyed (.float value)
  | boolean (value : Bool) : WellKeyed (.boolean value)
  | datetime (text : String) : WellKeyed (.datetime text)
  | array {items : List Value} (each : ∀ item ∈ items, WellKeyed item) : WellKeyed (.array items)
  | table {entries : List (String × Value)} (ascending : (entries.map Prod.fst).Pairwise (· < ·))
      (each : ∀ entry ∈ entries, WellKeyed entry.2) : WellKeyed (.table entries)

namespace Table
variable {table later : Table} {key : String} {value : Value}

/-- A table of that kind. -/
structure WellKeyed (table : Table) : Prop where
  ascending : (table.map Prod.fst).Pairwise (· < ·)
  each : ∀ entry ∈ table, entry.2.WellKeyed

theorem WellKeyed.nil : WellKeyed [] := ⟨.nil, nofun⟩

theorem WellKeyed.toValue (keyed : table.WellKeyed) : (Value.table table).WellKeyed :=
  .table keyed.ascending keyed.each

theorem wellKeyed_of_value (keyed : (Value.table table).WellKeyed) : table.WellKeyed := by
  cases keyed with
  | table ascending each => exact ⟨ascending, each⟩

theorem WellKeyed.get? (keyed : table.WellKeyed) (found : table.get? key = some value) :
    value.WellKeyed := by
  obtain ⟨entry, there, rfl⟩ := Option.map_eq_some_iff.mp found
  exact keyed.each entry (List.mem_of_find?_eq_some there)

theorem get?_eq_none_iff : table.get? key = none ↔ key ∉ table.map Prod.fst := by
  rw [Table.get?, Option.map_eq_none_iff, List.find?_eq_none, List.mem_map, not_exists]
  simp only [beq_iff_eq, not_and]

theorem mem_insert {entry : String × Value} :
    entry ∈ table.insert key value ↔ entry = (key, value) ∨ entry ∈ table := by
  induction table with
  | nil => simp [insert]
  | cons head rest ih =>
    rw [insert]
    split
    · exact List.mem_cons
    · rw [List.mem_cons, ih, List.mem_cons]
      exact or_left_comm

theorem mem_keys_insert {other : String} :
    other ∈ (table.insert key value).map Prod.fst ↔ other = key ∨ other ∈ table.map Prod.fst := by
  simp only [List.mem_map, mem_insert, or_and_right, exists_or, exists_eq_left, eq_comm]

/-- A new key is put in its place. -/
theorem pairwise_insert (ascending : (table.map Prod.fst).Pairwise (· < ·))
    (fresh : key ∉ table.map Prod.fst) (value : Value) :
    ((table.insert key value).map Prod.fst).Pairwise (· < ·) := by
  induction table with
  | nil => exact List.pairwise_singleton _ _
  | cons head rest ih =>
    obtain ⟨below, ascendingRest⟩ := List.pairwise_cons.mp ascending
    obtain ⟨differ, freshRest⟩ := not_or.mp (mt List.mem_cons.mpr fresh)
    rw [insert]
    split
    · rename_i first
      refine List.pairwise_cons.mpr ⟨fun other mem => ?_, ascending⟩
      rcases List.mem_cons.mp mem with rfl | later
      · exact first
      · exact first.trans (below other later)
    · rename_i notFirst
      have behind : head.1 < key := lt_of_le_of_ne (not_lt.mp notFirst) (Ne.symm differ)
      refine List.pairwise_cons.mpr ⟨fun other mem => ?_, ih ascendingRest freshRest⟩
      rcases mem_keys_insert.mp mem with rfl | later
      · exact behind
      · exact below other later

theorem WellKeyed.insert (keyed : table.WellKeyed) (fresh : key ∉ table.map Prod.fst)
    (well : value.WellKeyed) : (table.insert key value).WellKeyed := by
  refine ⟨pairwise_insert keyed.ascending fresh value, fun entry mem => ?_⟩
  rcases mem_insert.mp mem with rfl | there
  · exact well
  · exact keyed.each entry there

theorem WellKeyed.replace (keyed : table.WellKeyed) (well : value.WellKeyed) :
    WellKeyed (table.map fun entry => if entry.1 == key then (key, value) else entry) := by
  refine ⟨?_, forall_mem_replace well keyed.each⟩
  rw [keys_replace]
  exact keyed.ascending

theorem WellKeyed.addPair {parts : Key} (keyed : table.WellKeyed) (well : value.WellKeyed)
    (added : table.addPair value parts = some later) : later.WellKeyed := by
  fun_induction Table.addPair value parts table generalizing later with
  | case1 => cases added
  | case2 last table free =>
    cases added
    exact keyed.insert (get?_eq_none_iff.mp (Option.isNone_iff_eq_none.mp free)) well
  | case3 => cases added
  | case4 part rest table more free ih =>
    obtain ⟨inner, addedInner, rfl⟩ := Option.map_eq_some_iff.mp added
    exact keyed.insert (get?_eq_none_iff.mp free) (ih .nil addedInner).toValue
  | case5 part rest table more inner there ih =>
    obtain ⟨inner, addedInner, rfl⟩ := Option.map_eq_some_iff.mp added
    exact keyed.replace (ih (wellKeyed_of_value (keyed.get? there)) addedInner).toValue
  | case6 => cases added

end Table

/-! ## Readers -/

/-- Whatever a reader finds has a property. -/
def Finds {σ α : Type} (reader : Reading σ α) (post : α → Prop) : Prop :=
  ∀ rest value later, reader rest = some (value, later) → post value

namespace Finds
variable {σ α β : Type} {reader other : Reading σ α} {separator : Reading σ β} {post mid : α → Prop}
  {after : β → Prop} {onward : α → Reading σ β}

theorem anything : Finds reader fun _ => True := fun _ _ _ _ => trivial

theorem pure {value : α} (holds : post value) : Finds (Pure.pure value : Reading σ α) post := by
  intro rest _ _ read
  cases read
  exact holds

theorem fail : Finds (failure : Reading σ α) post := by
  intro rest value later read
  cases read

theorem bind (first : Finds reader mid) (further : ∀ value, mid value → Finds (onward value) after) :
    Finds (reader >>= onward) after := by
  intro rest value later read
  obtain ⟨⟨found, between⟩, readFirst, readRest⟩ := Option.bind_eq_some_iff.mp read
  exact further found (first _ _ _ readFirst) _ _ _ readRest

/-- What is read before does not matter. -/
theorem behind (further : ∀ value, Finds (onward value) after) : Finds (reader >>= onward) after :=
  bind anything fun value _ => further value

theorem map {write : α → β} (first : Finds reader mid) (holds : ∀ value, mid value → after (write value)) :
    Finds (write <$> reader) after := by
  intro rest value later read
  obtain ⟨⟨found, between⟩, readFirst, same⟩ := Option.bind_eq_some_iff.mp read
  cases same
  exact holds found (first _ _ _ readFirst)

theorem orElse (first : Finds reader post) (second : Finds other post) : Finds (reader <|> other) post := by
  intro rest value later read
  have either : (reader rest <|> other rest) = some (value, later) := read
  cases found : reader rest with
  | none =>
    rw [found] at either
    exact second _ _ _ either
  | some answer =>
    rw [found] at either
    cases either
    exact first _ _ _ found

theorem lift {found? : Option α} (holds : ∀ value, found? = some value → post value) :
    Finds (liftM found? : Reading σ α) post := by
  intro rest value later read
  obtain ⟨found, same, given⟩ := Option.bind_eq_some_iff.mp read
  cases given
  exact holds value same

theorem upTo (found : Finds reader post) (n : Nat) :
    Finds (Reading.upTo reader n) fun values => ∀ value ∈ values, post value := by
  induction n with
  | zero => exact pure nofun
  | succ n ih =>
    intro rest values later read
    unfold Reading.upTo at read
    split at read
    · rename_i here
      split at read
      · rename_i there
        cases read
        exact List.forall_mem_cons.mpr ⟨found _ _ _ here, ih _ _ _ there⟩
      · cases read
    · cases read
      nofun

theorem many (found : Finds reader post) :
    Finds (Reading.many reader) fun values => ∀ value ∈ values, post value :=
  fun rest => found.upTo rest.length rest

theorem separated (found : Finds reader post) :
    Finds (Reading.separated reader separator) fun values => ∀ value ∈ values, post value :=
  bind found fun _ here => bind (many (behind fun _ => found)) fun _ there =>
    pure (List.forall_mem_cons.mpr ⟨here, there⟩)

/-- Where nothing is found there is nothing to have the property. -/
theorem maybeAll {listing : Reading σ (List α)} (found : Finds listing fun values => ∀ value ∈ values, post value) :
    Finds (Reading.maybe listing) fun values? => ∀ value ∈ values?.getD [], post value := by
  intro rest values? later read
  unfold Reading.maybe at read
  split at read
  · rename_i here
    cases read
    exact found _ _ _ here
  · cases read
    exact nofun

/-- What is read behind it does not matter. -/
theorem before (found : Finds reader post) : Finds (reader <* separator) post :=
  bind found fun _ here => behind fun _ => pure here

end Finds

/-! ## Values that are read -/

open Reading (separated)

theorem finds_scalar : Finds scalar Value.WellKeyed := by
  have datetime : Finds datetime Value.WellKeyed :=
    .orElse (.behind fun _ => .behind fun _ => .pure (.datetime _)) (.map .anything fun _ _ => .datetime _)
  have rounded (negative : Bool) (value : Binary64) :
      Finds (if negative then pure (.float value.neg)
        else if value.isInfinite then failure else pure (.float value) : Reading Char Value)
        Value.WellKeyed := by
    split
    · exact .pure (.float _)
    · split
      · exact .fail
      · exact .pure (.float _)
  have decimalFloat : Finds decimalFloat Value.WellKeyed := by
    refine .behind fun negative => .behind fun whole => .behind fun fraction => ?_
    dsimp only
    split
    · exact .behind fun power => rounded _ _
    · exact .behind fun power => rounded _ _
  have specialFloat : Finds specialFloat Value.WellKeyed := .behind fun _ => .behind fun _ => .pure (.float _)
  have integer64 (negative : Bool) (value : Nat) :
      Finds (liftM (integer64? negative value) : Reading Char Value) Value.WellKeyed := by
    refine .lift fun value made => ?_
    obtain ⟨_, same⟩ := Option.ite_none_right_eq_some.mp made
    cases same
    exact .integer _
  have integer : Finds integer Value.WellKeyed := by
    refine .behind fun ahead => ?_
    split
    · exact .behind fun _ => .behind fun _ => integer64 _ _
    · exact .behind fun _ => .behind fun _ => integer64 _ _
    · exact .behind fun _ => .behind fun _ => integer64 _ _
    · exact .behind fun _ => .behind fun _ => integer64 _ _
  exact .orElse (.map .anything fun _ _ => .string _) (.orElse datetime (.orElse decimalFloat
    (.orElse specialFloat (.orElse integer (.orElse (.behind fun _ => .pure (.boolean _))
      (.behind fun _ => .pure (.boolean _)))))))

section Nested
variable {item : Reading Char Value}

theorem finds_array (found : Finds item Value.WellKeyed) : Finds (array item) Value.WellKeyed := by
  have items : Finds (separated (between *> item <* between) (char ',') <* Reading.maybe (char ','))
      fun values => ∀ value ∈ values, value.WellKeyed :=
    .before (.separated (.before (.behind fun _ => found)))
  refine .behind fun _ => .bind (.maybeAll items) fun _ each => ?_
  exact .behind fun _ => .behind fun _ => .pure (.array each)

theorem finds_pair (found : Finds item Value.WellKeyed) : Finds (pair item) fun pair => pair.2.WellKeyed :=
  .behind fun _ => .behind fun _ => .behind fun _ => .bind found fun _ well => .pure well

theorem finds_addPairs {pairs : List (Key × Value)} (each : ∀ pair ∈ pairs, pair.2.WellKeyed)
    {table : Table} (keyed : table.WellKeyed) :
    Finds (pairs.foldlM (fun table pair => liftM (Table.addPair pair.2 pair.1 table)) table :
      Reading Char Table) Table.WellKeyed := by
  induction pairs generalizing table with
  | nil => exact .pure keyed
  | cons pair pairs ih =>
    obtain ⟨first, rest⟩ := List.forall_mem_cons.mp each
    rw [List.foldlM_cons]
    exact .bind (.lift fun _ added => keyed.addPair first added) fun _ keyedNext => ih rest keyedNext

theorem finds_inlineTable (found : Finds item Value.WellKeyed) :
    Finds (inlineTable item) Value.WellKeyed := by
  have pairs : Finds (separated (pair item <* spaces) (char ','))
      fun pairs => ∀ pair ∈ pairs, pair.2.WellKeyed :=
    .separated (.before (finds_pair found))
  refine .behind fun _ => .bind (.maybeAll pairs) fun _ each => ?_
  refine .behind fun _ => .behind fun _ => .bind (finds_addPairs each .nil) ?_
  exact fun _ keyed => .pure keyed.toValue

end Nested

theorem finds_value (depth : Nat) : Finds (value depth) Value.WellKeyed := by
  induction depth with
  | zero => exact finds_scalar
  | succ depth ih => exact .orElse (finds_array ih) (.orElse (finds_inlineTable ih) finds_scalar)

/-- A statement that gives a key such a value, or none. -/
def Statement.WellKeyed : Statement → Prop
  | .pair _ value => value.WellKeyed
  | _ => True

theorem finds_statements : Finds statements fun found => ∀ statement ∈ found, statement.WellKeyed := by
  have one : Finds statement Statement.WellKeyed := by
    refine .behind fun ahead => ?_
    split
    · exact .behind fun _ => .behind fun _ => .behind fun _ => .behind fun _ => .pure trivial
    · exact .behind fun _ => .behind fun _ => .behind fun _ => .behind fun _ => .pure trivial
    · exact .bind (finds_pair (finds_value _)) fun _ well => .behind fun _ => .pure well
  have line : Finds line fun found => ∀ statement ∈ found, statement.WellKeyed :=
    .behind fun _ => .orElse (.behind fun _ => .pure nofun)
      (.orElse (.behind fun _ => .pure nofun) (.map one fun _ well => by rintro _ ⟨⟩; exact well))
  refine .bind (.many line) fun lines each => .behind fun _ => .pure fun statement mem => ?_
  obtain ⟨_, there, given⟩ := List.mem_filterMap.mp mem
  exact each _ there statement given

/-! ## Items -/

/-- An item whose tables have no key twice, at any depth. -/
inductive Item.WellKeyed : Item → Prop where
  | value {value : Value} (well : value.WellKeyed) : WellKeyed (.value value)
  | table {origin : Origin} {entries : List (String × Item)} (distinct : (entries.map Prod.fst).Nodup)
      (each : ∀ entry ∈ entries, WellKeyed entry.2) : WellKeyed (.table origin entries)
  | elements {tables : List (List (String × Item))}
      (distinct : ∀ entries ∈ tables, (entries.map Prod.fst).Nodup)
      (each : ∀ entries ∈ tables, ∀ entry ∈ entries, WellKeyed entry.2) : WellKeyed (.elements tables)

namespace Items
variable {items later : Items} {tables changed : List Items} {key : String} {item : Item} {value : Value}
  {parts : Key}

/-- Items of that kind. -/
structure WellKeyed (items : Items) : Prop where
  distinct : (items.map Prod.fst).Nodup
  each : ∀ entry ∈ items, entry.2.WellKeyed

theorem WellKeyed.nil : WellKeyed [] := ⟨.nil, nofun⟩

theorem WellKeyed.toItem (keyed : items.WellKeyed) (origin : Origin) :
    (Item.table origin items).WellKeyed :=
  .table keyed.distinct keyed.each

theorem wellKeyed_elements_iff :
    (Item.elements tables).WellKeyed ↔ ∀ items ∈ tables, WellKeyed items := by
  constructor
  · intro keyed
    cases keyed with
    | elements distinct each => exact fun items mem => ⟨distinct items mem, each items mem⟩
  · intro each
    exact .elements (fun items mem => (each items mem).distinct) fun items mem => (each items mem).each

theorem wellKeyed_of_table {origin : Origin} (keyed : (Item.table origin items).WellKeyed) :
    items.WellKeyed := by
  cases keyed with
  | table distinct each => exact ⟨distinct, each⟩

theorem WellKeyed.get? (keyed : items.WellKeyed) (found : items.get? key = some item) :
    item.WellKeyed := by
  obtain ⟨entry, there, rfl⟩ := Option.map_eq_some_iff.mp found
  exact keyed.each entry (List.mem_of_find?_eq_some there)

theorem WellKeyed.set (keyed : items.WellKeyed) (well : item.WellKeyed) :
    WellKeyed (items.set key item) := by
  unfold Items.set
  split
  · refine ⟨?_, forall_mem_replace well keyed.each⟩
    rw [keys_replace]
    exact keyed.distinct
  · rename_i free
    constructor
    · have fresh : key ∉ items.map Prod.fst := by
        intro mem
        obtain ⟨entry, there, same⟩ := List.mem_map.mp mem
        exact free (List.any_eq_true.mpr ⟨entry, there, beq_iff_eq.mpr same⟩)
      rw [List.map_append]
      refine List.nodup_append.mpr ⟨keyed.distinct, List.pairwise_singleton _ _, fun other mem => ?_⟩
      refine List.forall_mem_singleton.mpr ?_
      rintro rfl
      exact fresh mem
    · refine List.forall_mem_append.mpr ⟨keyed.each, ?_⟩
      exact List.forall_mem_singleton.mpr well

theorem wellKeyed_changeLast {change : Items → Option Items}
    (keeps : ∀ items later, WellKeyed items → change items = some later → WellKeyed later)
    (each : ∀ items ∈ tables, WellKeyed items) (done : changeLast change tables = some changed) :
    ∀ items ∈ changed, WellKeyed items := by
  unfold changeLast at done
  split at done
  · rename_i last ends
    obtain ⟨next, made, rfl⟩ := Option.map_eq_some_iff.mp done
    refine List.forall_mem_append.mpr ⟨fun items mem => each items ((List.dropLast_sublist _).subset mem), ?_⟩
    exact List.forall_mem_singleton.mpr (keeps last next (each last (List.mem_of_getLast? ends)) made)
  · cases done

/-- The last one of some tables is changed. -/
theorem WellKeyed.setElements {change : Items → Option Items} (keyed : items.WellKeyed)
    (keeps : ∀ items later, WellKeyed items → change items = some later → WellKeyed later)
    (there : items.get? key = some (.elements tables))
    (done : (changeLast change tables).map (fun tables => items.set key (.elements tables)) = some later) :
    WellKeyed later := by
  obtain ⟨next, made, rfl⟩ := Option.map_eq_some_iff.mp done
  have each := wellKeyed_elements_iff.mp (keyed.get? there)
  exact keyed.set (wellKeyed_elements_iff.mpr (wellKeyed_changeLast keeps each made))

theorem WellKeyed.addPair {isOpen : Bool} (keyed : items.WellKeyed) (well : value.WellKeyed)
    (added : items.addPair isOpen value parts = some later) : WellKeyed later := by
  -- By induction on the parts: in the last table of an array they are added by `changeLast`, which the
  -- induction of the function itself does not see through.
  induction parts generalizing isOpen items later with
  | nil => cases added
  | cons part rest ih =>
    cases rest with
    | nil =>
      unfold Items.addPair at added
      split at added
      · cases added
        exact keyed.set (.value well)
      · cases added
    | cons next rest =>
      unfold Items.addPair at added
      split at added
      · obtain ⟨inner, addedInner, rfl⟩ := Option.map_eq_some_iff.mp added
        exact keyed.set ((ih .nil addedInner).toItem .dotted)
      · cases added
      · rename_i tables there
        exact keyed.setElements (fun _ _ inner => ih inner) there added
      · rename_i origin inner there
        split at added
        · cases added
        · obtain ⟨inner, addedInner, rfl⟩ := Option.map_eq_some_iff.mp added
          exact keyed.set ((ih (wellKeyed_of_table (keyed.get? there)) addedInner).toItem origin)

theorem WellKeyed.addPairs {pairs : List (Key × Value)} (keyed : items.WellKeyed)
    (each : ∀ pair ∈ pairs, pair.2.WellKeyed) (added : items.addPairs pairs = some later) :
    WellKeyed later := by
  induction pairs generalizing items with
  | nil =>
    cases added
    exact keyed
  | cons pair pairs ih =>
    obtain ⟨first, rest⟩ := List.forall_mem_cons.mp each
    obtain ⟨next, addedFirst, addedRest⟩ := Option.bind_eq_some_iff.mp added
    exact ih (keyed.addPair first addedFirst) rest addedRest

/-- A change at the end of a header. -/
theorem WellKeyed.descend {change : String → Items → Option Items} (keyed : items.WellKeyed)
    (keeps : ∀ key items later, WellKeyed items → change key items = some later → WellKeyed later)
    (done : items.descend change parts = some later) : WellKeyed later := by
  induction parts generalizing items later with
  | nil => cases done
  | cons part rest ih =>
    cases rest with
    | nil => exact keeps part items later keyed done
    | cons next rest =>
      unfold Items.descend at done
      split at done
      · obtain ⟨inner, doneInner, rfl⟩ := Option.map_eq_some_iff.mp done
        exact keyed.set ((ih .nil doneInner).toItem .implied)
      · cases done
      · rename_i tables there
        exact keyed.setElements (fun _ _ inner => ih inner) there done
      · rename_i origin inner there
        obtain ⟨inner, doneInner, rfl⟩ := Option.map_eq_some_iff.mp done
        exact keyed.set ((ih (wellKeyed_of_table (keyed.get? there)) doneInner).toItem origin)

theorem WellKeyed.addTable {pairs : List (Key × Value)} (keyed : items.WellKeyed)
    (each : ∀ pair ∈ pairs, pair.2.WellKeyed) (added : items.addTable parts pairs = some later) :
    WellKeyed later := by
  refine keyed.descend (fun last items later keyed made => ?_) added
  have filled {inner : Items} (keyedInner : inner.WellKeyed)
      (made : (Items.addPairs pairs inner).map (fun inner => items.set last (.table .header inner)) =
        some later) : WellKeyed later := by
    obtain ⟨next, addedInner, rfl⟩ := Option.map_eq_some_iff.mp made
    exact keyed.set ((keyedInner.addPairs each addedInner).toItem .header)
  split at made
  · exact filled .nil made
  · rename_i there
    exact filled (wellKeyed_of_table (keyed.get? there)) made
  · cases made

theorem WellKeyed.addElement {pairs : List (Key × Value)} (keyed : items.WellKeyed)
    (each : ∀ pair ∈ pairs, pair.2.WellKeyed) (added : items.addElement parts pairs = some later) :
    WellKeyed later := by
  refine keyed.descend (fun last items later keyed made => ?_) added
  have filled (tables : List Items) (eachTable : ∀ items ∈ tables, WellKeyed items)
      (made : (Items.addPairs pairs []).map (fun inner => items.set last (.elements (tables ++ [inner]))) =
        some later) : WellKeyed later := by
    obtain ⟨inner, addedInner, rfl⟩ := Option.map_eq_some_iff.mp made
    refine keyed.set (wellKeyed_elements_iff.mpr (List.forall_mem_append.mpr ⟨eachTable, ?_⟩))
    exact List.forall_mem_singleton.mpr (WellKeyed.nil.addPairs each addedInner)
  split at made
  · exact filled [] nofun made
  · rename_i there
    exact filled _ (wellKeyed_elements_iff.mp (keyed.get? there)) made
  · cases made

end Items

/-! ## Items as values -/

theorem mem_keys_of_toTable {entries : List (String × Item)} :
    ∀ key ∈ (Item.toTable entries).map Prod.fst, key ∈ entries.map Prod.fst := by
  induction entries with
  | nil => exact nofun
  | cons entry rest ih =>
    intro key mem
    rw [Item.toTable] at mem
    rcases Table.mem_keys_insert.mp mem with rfl | there
    · exact List.mem_cons_self
    · exact List.mem_cons_of_mem _ (ih key there)

mutual
theorem Item.WellKeyed.toValue : ∀ {item : Item}, item.WellKeyed → item.toValue.WellKeyed
  | .value _, keyed => by
    cases keyed with
    | value well => exact well
  | .table _ entries, keyed => by
    cases keyed with
    | table distinct each => exact (wellKeyed_toTable entries distinct each).toValue
  | .elements tables, keyed => by
    cases keyed with
    | elements distinct each => exact .array (wellKeyed_toTables tables distinct each)

theorem wellKeyed_toTable : ∀ (entries : List (String × Item)), (entries.map Prod.fst).Nodup →
    (∀ entry ∈ entries, entry.2.WellKeyed) → (Item.toTable entries).WellKeyed
  | [], _, _ => .nil
  | (key, item) :: rest, distinct, each => by
    obtain ⟨fresh, distinctRest⟩ := List.nodup_cons.mp distinct
    obtain ⟨first, eachRest⟩ := List.forall_mem_cons.mp each
    exact (wellKeyed_toTable rest distinctRest eachRest).insert
      (fun mem => fresh (mem_keys_of_toTable key mem)) first.toValue

theorem wellKeyed_toTables : ∀ (tables : List (List (String × Item))),
    (∀ entries ∈ tables, (entries.map Prod.fst).Nodup) →
    (∀ entries ∈ tables, ∀ entry ∈ entries, entry.2.WellKeyed) →
    ∀ value ∈ Item.toTables tables, value.WellKeyed
  | [], _, _ => nofun
  | entries :: rest, distinct, each => by
    obtain ⟨first, distinctRest⟩ := List.forall_mem_cons.mp distinct
    obtain ⟨eachFirst, eachRest⟩ := List.forall_mem_cons.mp each
    exact List.forall_mem_cons.mpr ⟨(wellKeyed_toTable entries first eachFirst).toValue,
      wellKeyed_toTables rest distinctRest eachRest⟩
end

/-! ## Documents -/

theorem wellKeyed_of_blocks {statements : List Statement}
    (each : ∀ statement ∈ statements, statement.WellKeyed) :
    (∀ pair ∈ (blocks statements).1, pair.2.WellKeyed) ∧
      ∀ block ∈ (blocks statements).2, block.header.WellKeyed ∧ ∀ pair ∈ block.pairs, pair.2.WellKeyed := by
  induction statements with
  | nil => exact ⟨nofun, nofun⟩
  | cons statement rest ih =>
    obtain ⟨first, eachRest⟩ := List.forall_mem_cons.mp each
    obtain ⟨pairs, later⟩ := ih eachRest
    cases statement with
    | pair key value => exact ⟨List.forall_mem_cons.mpr ⟨first, pairs⟩, later⟩
    | table key => exact ⟨nofun, List.forall_mem_cons.mpr ⟨⟨first, pairs⟩, later⟩⟩
    | element key => exact ⟨nofun, List.forall_mem_cons.mpr ⟨⟨first, pairs⟩, later⟩⟩

theorem Items.WellKeyed.addBlock {items later : Items} {block : Block} (keyed : items.WellKeyed)
    (header : block.header.WellKeyed) (each : ∀ pair ∈ block.pairs, pair.2.WellKeyed)
    (added : block.add items = some later) : later.WellKeyed := by
  obtain ⟨statement, pairs⟩ := block
  cases statement with
  | table key => exact keyed.addTable each added
  | element key => exact keyed.addElement each added
  | pair key value =>
    have well : value.WellKeyed := header
    exact keyed.addPairs (List.forall_mem_cons.mpr ⟨well, each⟩) added

theorem Items.WellKeyed.addBlocks {items later : Items} {blocks : List Block} (keyed : items.WellKeyed)
    (each : ∀ block ∈ blocks, block.header.WellKeyed ∧ ∀ pair ∈ block.pairs, pair.2.WellKeyed)
    (added : blocks.foldlM Block.add items = some later) : later.WellKeyed := by
  induction blocks generalizing items with
  | nil =>
    cases added
    exact keyed
  | cons block blocks ih =>
    obtain ⟨⟨header, eachPair⟩, eachRest⟩ := List.forall_mem_cons.mp each
    obtain ⟨next, addedFirst, addedRest⟩ := Option.bind_eq_some_iff.mp added
    exact ih (keyed.addBlock header eachPair addedFirst) eachRest addedRest

theorem Table.wellKeyed_of_statements {statements : List Statement} {table : Table}
    (each : ∀ statement ∈ statements, statement.WellKeyed) (made : ofStatements? statements = some table) :
    table.WellKeyed := by
  obtain ⟨pairs, later⟩ := wellKeyed_of_blocks each
  obtain ⟨items, addedPairs, made⟩ := Option.bind_eq_some_iff.mp made
  obtain ⟨last, addedBlocks, made⟩ := Option.bind_eq_some_iff.mp made
  cases made
  have keyed := (Items.WellKeyed.nil.addPairs pairs addedPairs).addBlocks later addedBlocks
  exact wellKeyed_toTable last keyed.distinct keyed.each

/-- A document has no key twice in any of its tables. -/
theorem Table.wellKeyed_of_text {text : String} {table : Table} (read : ofText? text = some table) :
    table.WellKeyed := by
  obtain ⟨statements, found, made⟩ := Option.bind_eq_some_iff.mp read
  exact wellKeyed_of_statements (finds_statements _ _ _ ((Reading.whole_eq_some_iff _ _ _).mp found)) made

/-- A value that counts as a table is one of that kind. -/
theorem Value.WellKeyed.toTable {value : Value} {table : Table} (well : value.WellKeyed)
    (counts : value.table? = some table) : table.WellKeyed := by
  cases value with
  | table =>
    cases counts
    exact Table.wellKeyed_of_value well
  | datetime text =>
    cases counts
    exact ⟨List.pairwise_singleton _ _, List.forall_mem_singleton.mpr (.string text)⟩
  | _ => cases counts

theorem wellKeyed_of_mapM {items : List Value} {tables : List Table} (each : ∀ item ∈ items, item.WellKeyed)
    (counted : items.mapM Value.table? = some tables) : ∀ table ∈ tables, table.WellKeyed := by
  induction items generalizing tables with
  | nil =>
    cases counted
    exact nofun
  | cons item items ih =>
    obtain ⟨first, rest⟩ := List.forall_mem_cons.mp each
    rw [List.mapM_cons] at counted
    obtain ⟨table, counts, counted⟩ := Option.bind_eq_some_iff.mp counted
    obtain ⟨tables, countedRest, same⟩ := Option.bind_eq_some_iff.mp counted
    cases same
    exact List.forall_mem_cons.mpr ⟨first.toTable counts, ih rest countedRest⟩

end SlotArray.Toml

namespace SlotArray.Manifest
open Toml (Table)

/-- Neither has any entry of a manifest. -/
theorem wellKeyed_of_parse {text origin : String} {manifest : Manifest}
    (read : parse text origin = .ok manifest) : ∀ table ∈ manifest.entries, Table.WellKeyed table := by
  have made : (Table.ofText? text).bind ofTable? = some manifest := by
    unfold parse at read
    split at read
    · cases read
    · rename_i found
      rw [found]
      split at read
      · split at read
        · cases read
          rfl
        · cases read
      · cases read
        rfl
  obtain ⟨document, found, made⟩ := Option.bind_eq_some_iff.mp made
  have listed {items : List Toml.Value} {tables : List Table}
      (there : document.get? "struct_array" = some (.array items))
      (counted : items.mapM Toml.Value.table? = some tables) : ∀ table ∈ tables, Table.WellKeyed table := by
    cases (Table.wellKeyed_of_text found).get? there with
    | array each => exact Toml.wellKeyed_of_mapM each counted
  unfold ofTable? at made
  dsimp only at made
  -- With settings and without, entries are listed in the same way.
  split at made
  all_goals
    obtain ⟨config, _, made⟩ := Option.bind_eq_some_iff.mp made
    split at made
    · rename_i items there
      obtain ⟨entries, counted, same⟩ := Option.bind_eq_some_iff.mp made
      cases same
      exact listed there counted
    · cases made
    · cases made
      exact fun table mem => absurd mem List.not_mem_nil

end SlotArray.Manifest
