import Mathlib.Data.List.Forall2
import SlotArray.Proofs.FrontEnds
import SlotArray.Proofs.GenerationRuns
import SlotArray.Proofs.TableKeys
import SlotArray.Proofs.Verdicts

/-! The entries of a manifest. A table says three things, whatever else is in it and in whatever order.
One that lacks any of them asks for nothing in its own right and is not passed over either: the arguments
end where the first value is missing, so they are too few, and the pass fails at that entry unless it
failed before. -/
namespace SlotArray
namespace Manifest

variable {table other : Toml.Table} {key : String} {keys : List String} {found i : Nat}
  {manifest : Manifest}

/-! ## Tables -/

/-- Tables that have the same values for the keys of arguments. -/
def Agree (table other : Toml.Table) : Prop :=
  ∀ key ∈ argumentKeys, table.get? key = other.get? key

/-- The entries of a table that become arguments. -/
def argumentEntries (table : Toml.Table) : Toml.Table :=
  table.filter fun entry => argumentKeys.contains entry.1

/-- A value of a manifest as an argument: of the same kind, with the same content. Dates, arrays and
tables, of which there is no kind of their own, are given as text. -/
inductive GivenAs : Toml.Value → Argument → Prop where
  | string (text : String) : GivenAs (.string text) (.string text)
  | integer (value : Int) : GivenAs (.integer value) (.integer value)
  | boolean (value : Bool) : GivenAs (.boolean value) (.boolean value)
  | float (value : Binary64) : GivenAs (.float value) (.float value)
  | datetime (text : String) : GivenAs (.datetime text) (.other (Toml.Value.datetime text).display)
  | array (items : List Toml.Value) : GivenAs (.array items) (.other (Toml.Value.array items).display)
  | table (entries : Toml.Table) : GivenAs (.table entries) (.other (Toml.Value.table entries).display)

/-- The first key that a table lacks comes behind `found` others. -/
structure StopsAt (table : Toml.Table) (keys : List String) (found : Nat) : Prop where
  given : ∀ key ∈ keys.take found, (table.get? key).isSome = true
  missing : ∃ key, keys[found]? = some key ∧ table.get? key = none

theorem givenAs_ofValue (value : Toml.Value) : GivenAs value (.ofValue value) := by
  cases value <;> constructor

/-- In a table with distinct keys a key has the value that stands behind it. -/
theorem get?_eq_some_iff (distinct : (table.map Prod.fst).Nodup) {value : Toml.Value} :
    table.get? key = some value ↔ (key, value) ∈ table := by
  induction table with
  | nil => simp [Toml.Table.get?]
  | cons head rest ih =>
    obtain ⟨fresh, distinct⟩ := List.nodup_cons.mp distinct
    rw [Toml.Table.get?, List.find?_cons]
    by_cases same : head.1 = key
    · subst same
      have others : (head.1, value) ∉ rest := fun mem => fresh (List.mem_map.mpr ⟨_, mem, rfl⟩)
      simp [others, Prod.ext_iff, eq_comm]
    · have differ : (head.1 == key) = false := beq_eq_false_iff_ne.mpr same
      have notHead : (key, value) ≠ head := fun isHead => same (congrArg Prod.fst isHead).symm
      rw [differ, List.mem_cons, or_iff_right notHead]
      exact ih distinct

theorem get?_argumentEntries (counts : key ∈ argumentKeys) :
    (argumentEntries table).get? key = table.get? key := by
  rw [argumentEntries, Toml.Table.get?, List.find?_filter, Toml.Table.get?]
  congr 2
  funext entry
  by_cases same : entry.1 = key
  · simp [same, counts]
  · simp [same]

/-- Neither the order of the keys nor those that mean nothing make a difference. -/
theorem agree_of_perm (distinct : ((argumentEntries table).map Prod.fst).Nodup)
    (same : (argumentEntries table).Perm (argumentEntries other)) : Agree table other := by
  intro key counts
  rw [← @get?_argumentEntries table _ counts, ← @get?_argumentEntries other _ counts]
  have distinctToo : ((argumentEntries other).map Prod.fst).Nodup := (same.map _).nodup_iff.mp distinct
  refine Option.ext fun value => ?_
  rw [get?_eq_some_iff distinct, get?_eq_some_iff distinctToo]
  exact same.mem_iff

/-- A manifest that was read says none of the three twice. -/
theorem nodup_argumentEntries {text origin : String} {manifest : Manifest}
    (read : parse text origin = .ok manifest) :
    ∀ table ∈ manifest.entries, ((argumentEntries table).map Prod.fst).Nodup := by
  intro table mem
  have distinct : (table.map Prod.fst).Nodup := (wellKeyed_of_parse read table mem).ascending.imp ne_of_lt
  exact distinct.sublist (List.filter_sublist.map Prod.fst)

/-! ## Arguments -/

theorem entryArguments_congr (same : ∀ key ∈ keys, table.get? key = other.get? key) :
    entryArguments table keys = entryArguments other keys := by
  induction keys with
  | nil => rfl
  | cons key rest ih =>
    obtain ⟨first, later⟩ := List.forall_mem_cons.mp same
    rw [entryArguments, entryArguments, first, ih later]

theorem length_entryArguments (stops : StopsAt table keys found) :
    (entryArguments table keys).length = found := by
  induction keys generalizing found with
  | nil => exact absurd stops.missing (by simp)
  | cons key rest ih =>
    obtain ⟨given, missing⟩ := stops
    cases found with
    | zero =>
      obtain ⟨_, isFirst, missing⟩ := missing
      obtain rfl := Option.some.inj isFirst
      rw [entryArguments, missing]
      rfl
    | succ found =>
      obtain ⟨first, later⟩ := List.forall_mem_cons.mp given
      obtain ⟨value, has⟩ := Option.isSome_iff_exists.mp first
      rw [entryArguments, has]
      exact congrArg (· + 1) (ih ⟨later, missing⟩)

theorem exists_stopsAt (lacks : ∃ key ∈ keys, table.get? key = none) :
    ∃ found < keys.length, StopsAt table keys found := by
  induction keys with
  | nil => exact absurd lacks (by simp)
  | cons key rest ih =>
    cases has : table.get? key with
    | none => exact ⟨0, Nat.succ_pos _, nofun, key, rfl, has⟩
    | some value =>
      have later : ∃ key ∈ rest, table.get? key = none := by
        obtain ⟨other, mem, missing⟩ := lacks
        rcases List.mem_cons.mp mem with rfl | mem
        · exact nomatch has.symm.trans missing
        · exact ⟨other, mem, missing⟩
      obtain ⟨found, within, given, missing⟩ := ih later
      refine ⟨found + 1, Nat.succ_lt_succ within, ?_, missing⟩
      exact List.forall_mem_cons.mpr ⟨by rw [has]; rfl, given⟩

/-! ## Occurrences -/

theorem getElem?_occurrences (i : Nat) : manifest.occurrences[i]? =
    manifest.entries[i]?.map fun table => ⟨manifest.entryLabel i,
      [⟨qualifiedTagName, entryArguments table argumentKeys⟩]⟩ :=
  List.getElem?_mapIdx

/-- Nothing else of the tables is seen. -/
theorem occurrences_congr {other : Manifest} (origin : other.path = manifest.path)
    (agree : List.Forall₂ Agree manifest.entries other.entries) :
    other.occurrences = manifest.occurrences := by
  have label : other.entryLabel = manifest.entryLabel := by
    funext i
    rw [entryLabel, entryLabel, origin]
  have arguments : manifest.entries.map (entryArguments · argumentKeys) =
      other.entries.map (entryArguments · argumentKeys) := by
    rw [← List.forall₂_eq_eq_eq, List.forall₂_map_left_iff, List.forall₂_map_right_iff]
    exact agree.imp fun _ _ => entryArguments_congr
  rw [occurrences_eq_labelled, occurrences_eq_labelled, label, arguments]

theorem exists_givenAs {name home size : Toml.Value} (hasName : table.get? "name" = some name)
    (hasHome : table.get? "namespace" = some home) (hasSize : table.get? "size" = some size) :
    List.Forall₂ GivenAs [name, home, size] (entryArguments table argumentKeys) := by
  simp only [argumentKeys, entryArguments, hasName, hasHome, hasSize]
  exact .cons (givenAs_ofValue name) (.cons (givenAs_ofValue home) (.cons (givenAs_ofValue size) .nil))

/-- What is said of an entry that gives fewer than three arguments. -/
def tooFew (manifest : Manifest) (i found : Nat) : SchemaError :=
  ⟨manifest.entryLabel i, qualifiedTagName, .argumentCount 3 found⟩

/-- An entry that lacks a key cannot be read: its arguments are too few. -/
theorem request?_of_stopsAt (stops : StopsAt table argumentKeys found) (within : found < 3) :
    (Occurrence.mk (manifest.entryLabel i)
      [⟨qualifiedTagName, entryArguments table argumentKeys⟩]).request? .named =
      .error (manifest.tooFew i found) := by
  have qualified : IsTagPath qualifiedTagName := by decide +kernel
  have count := length_entryArguments stops
  have few : (entryArguments table argumentKeys).length ≠ Shape.named.arity := by
    rw [count]
    exact Nat.ne_of_lt within
  rw [request?_of_isTagPath qualified, request?_of_verdict (.miscounted few), count]
  rfl

end Manifest

/-! ## Passes -/

open Manifest (Agree GivenAs StopsAt argumentEntries argumentKeys)

/-- An occurrence that cannot be read is in the way of its feed. -/
theorem TroubleAt.of_request? {shape : Shape} {feed : List Occurrence} {occurrence : Occurrence} {i : Nat}
    {error : SchemaError} (here : feed[i]? = some occurrence)
    (failed : occurrence.request? shape = .error error) : TroubleAt shape feed i (.schema error) := by
  obtain ⟨tag, cause, tagged, read, rfl⟩ := request?_eq_error_iff.mp failed
  exact .faulty here tagged read

/-- With something wrong at a position a feed fails there, or already before. -/
theorem exists_isFirstTrouble_le {shape : Shape} {feed : List Occurrence} {i : Nat} {error : PassError}
    (trouble : TroubleAt shape feed i error) :
    ∃ j ≤ i, ∃ first, IsFirstTrouble shape feed j first ∧ (j = i → first = error) := by
  obtain ⟨first, failed⟩ := exists_discover_error_iff.mpr ⟨i, error, trouble⟩
  obtain ⟨j, isFirst⟩ := discover_eq_error_iff_first.mp failed
  refine ⟨j, ?_, first, isFirst, ?_⟩
  · by_contra behind
    exact isFirst.2 i (Nat.lt_of_not_le behind) error trouble
  · rintro rfl
    exact isFirst.1.unique trouble

namespace Manifest

/-- A fault is that of the first entry that cannot be read, and says which one that is. -/
theorem exists_entry_of_schema {manifest : Manifest} {error : SchemaError}
    (failed : discover .named manifest.occurrences = .error (.schema error)) :
    ∃ k occurrence, manifest.occurrences[k]? = some occurrence ∧
      occurrence.request? .named = .error error ∧
      (∀ j < k, ∀ earlier, manifest.occurrences[j]? = some earlier →
        ∃ answer, earlier.request? .named = .ok answer) ∧
      error.declaration = manifest.entryLabel k := by
  obtain ⟨before, occurrence, after, requests, parts, fine, wrong⟩ := discover_eq_error_iff.mp failed
  have found : occurrence.request? .named = .error error := by
    cases wrong
    assumption
  have here : manifest.occurrences[before.length]? = some occurrence := by simp [parts]
  refine ⟨before.length, occurrence, here, found, ?_, ?_⟩
  · intro j within earlier there
    rw [parts, List.getElem?_append_left within] at there
    exact (discover_eq_ok_iff.mp fine).1 earlier (List.mem_of_getElem? there)
  · rw [getElem?_occurrences] at here
    obtain ⟨table, _, rfl⟩ := Option.map_eq_some_iff.mp here
    exact declaration_of_request? found

end Manifest

/-- A pass sees three values of every table in a manifest. Tables that have the same, in whatever order
their keys are and whatever other keys they have, make the same occurrences; a manifest that was read has
no key twice in a table. A table with all three makes an occurrence with these arguments. One that lacks
any of them makes the pass fail for the number of its arguments, unless an earlier entry makes it fail. And
a fault names the first entry that cannot be read. -/
theorem pass_follows_argument_keys (manifest : Manifest) :
    (∀ other : Manifest, other.path = manifest.path →
      List.Forall₂ Agree manifest.entries other.entries → other.occurrences = manifest.occurrences) ∧
    (∀ table other : Toml.Table, ((argumentEntries table).map Prod.fst).Nodup →
      (argumentEntries table).Perm (argumentEntries other) → Agree table other) ∧
    (∀ (text origin : String) (read : Manifest), Manifest.parse text origin = .ok read →
      ∀ table ∈ read.entries, ((argumentEntries table).map Prod.fst).Nodup) ∧
    (∀ (i : Nat) (table : Toml.Table) (name home size : Toml.Value),
      manifest.entries[i]? = some table → table.get? "name" = some name →
      table.get? "namespace" = some home → table.get? "size" = some size →
      ∃ arguments, List.Forall₂ GivenAs [name, home, size] arguments ∧
        manifest.occurrences[i]? =
          some ⟨manifest.entryLabel i, [⟨"struct_array::struct_array", arguments⟩]⟩) ∧
    (∀ (i : Nat) (table : Toml.Table), manifest.entries[i]? = some table →
      (∃ key ∈ argumentKeys, table.get? key = none) →
      ∃ found < 3, StopsAt table argumentKeys found ∧
        (∃ occurrence, manifest.occurrences[i]? = some occurrence ∧
          occurrence.request? .named = .error (manifest.tooFew i found)) ∧
        ∃ j ≤ i, ∃ error, IsFirstTrouble .named manifest.occurrences j error ∧
          (j = i → error = .schema (manifest.tooFew i found)) ∧
          ∀ (generator : Generator) {σ : Type} (sink : Sink σ) (state : σ),
            generator.run sink manifest.occurrences state = (.error error, state)) ∧
    (∀ error, discover .named manifest.occurrences = .error (.schema error) →
      ∃ k occurrence, manifest.occurrences[k]? = some occurrence ∧
        occurrence.request? .named = .error error ∧
        (∀ j < k, ∀ earlier, manifest.occurrences[j]? = some earlier →
          ∃ answer, earlier.request? .named = .ok answer) ∧
        error.declaration =
          manifest.path.getD "manifest" ++ ": [[struct_array]] #" ++ toString (k + 1)) := by
  refine ⟨fun other => Manifest.occurrences_congr, fun table other => Manifest.agree_of_perm,
    fun text origin read => Manifest.nodup_argumentEntries, ?_, ?_, fun error => Manifest.exists_entry_of_schema⟩
  · intro i table name home size here hasName hasHome hasSize
    refine ⟨_, Manifest.exists_givenAs hasName hasHome hasSize, ?_⟩
    rw [Manifest.getElem?_occurrences, here]
    rfl
  · intro i table here lacks
    obtain ⟨found, within, stops⟩ := Manifest.exists_stopsAt lacks
    have failed := @Manifest.request?_of_stopsAt _ _ i manifest stops within
    have there := @Manifest.getElem?_occurrences manifest i
    rw [here, Option.map_some] at there
    obtain ⟨j, upTo, error, first, same⟩ := exists_isFirstTrouble_le (.of_request? there failed)
    refine ⟨found, within, stops, ⟨_, there, failed⟩, j, upTo, error, first, same, ?_⟩
    intro generator σ sink state
    exact generator.run_of_error (discover_eq_error_iff_first.mpr ⟨j, first⟩) sink state

/-- A container, and an entry of size 0 that lacks its module: keys in another order, and others beside
them, make no difference. The second entry is not passed over, and the pass fails at it. -/
theorem pass_follows_argument_keys_lacking :
    let pair : Toml.Table := [("name", .string "Pair"), ("namespace", .string "m"), ("size", .integer 2)]
    let shuffled : Toml.Table :=
      [("size", .integer 2), ("why", .boolean true), ("name", .string "Pair"), ("namespace", .string "m")]
    let lacking : Toml.Table := [("name", .string "Plot"), ("size", .integer 0)]
    let manifest : Manifest := ⟨.initial, [pair, lacking], some "two.toml"⟩
    let other : Manifest := ⟨.initial, [shuffled, lacking], some "two.toml"⟩
    let text := "[[struct_array]]\nsize = 2\nwhy = true\nnamespace = \"m\"\nname = \"Pair\"\n"
    (∃ read, Manifest.parse text "two.toml" = .ok read ∧
      ∀ table ∈ read.entries, ((argumentEntries table).map Prod.fst).Nodup) ∧
    Agree pair shuffled ∧ other.occurrences = manifest.occurrences ∧
      (∃ arguments, List.Forall₂ GivenAs [.string "Pair", .string "m", .integer 2] arguments ∧
        manifest.occurrences[0]? =
          some ⟨"two.toml: [[struct_array]] #1", [⟨"struct_array::struct_array", arguments⟩]⟩) ∧
      (∃ j ≤ 1, ∃ error, IsFirstTrouble .named manifest.occurrences j error) ∧
      ∃ error k, discover .named manifest.occurrences = .error (.schema error) ∧
        error.declaration = "two.toml" ++ ": [[struct_array]] #" ++ toString (k + 1) := by
  intro pair shuffled lacking manifest other text
  obtain ⟨same, agree, once, complete, incomplete, fault⟩ := pass_follows_argument_keys manifest
  have parses : (Manifest.parse text "two.toml").toOption.isSome = true := by decide +kernel
  obtain ⟨read, found⟩ := Option.isSome_iff_exists.mp parses
  have parsed := eq_ok_of_toOption found
  have distinct : ((argumentEntries pair).map Prod.fst).Nodup := by decide +kernel
  have swapped : (pair.take 2 ++ pair.drop 2).Perm (pair.drop 2 ++ pair.take 2) := List.perm_append_comm
  have rearranged : (argumentEntries pair).Perm (argumentEntries shuffled) := swapped
  have agrees := agree pair shuffled distinct rearranged
  obtain ⟨found, _, _, _, j, upTo, error, first, _⟩ :=
    incomplete 1 lacking rfl ⟨"namespace", by decide, rfl⟩
  have failed : discover .named manifest.occurrences = .error (.schema (manifest.tooFew 1 1)) := by
    decide +kernel
  obtain ⟨k, _, _, _, _, names⟩ := fault _ failed
  have alike := same other rfl (.cons agrees (.cons (fun _ _ => rfl) .nil))
  refine ⟨⟨read, parsed, once _ _ _ parsed⟩, agrees, alike,
    complete 0 pair _ _ _ rfl rfl rfl rfl, ⟨j, upTo, error, first⟩, _, k, failed, names⟩

end SlotArray
