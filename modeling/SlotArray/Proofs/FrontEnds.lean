import Mathlib.Data.List.Forall2
import SlotArray.Invocation
import SlotArray.Manifest
import SlotArray.Proofs.Accepted

/-! The two places where named containers are asked for: the entries of a manifest, and a list in a
source text. A pass sees arguments and nothing else of either; how declarations and tags are called
shows in what it reports, but never in what it does. -/
namespace SlotArray
open Source (Expr LiteralValue TokenTree)

/-! ## Labels -/

/-- Results of two passes over as many declarations, told apart by nothing but what the faults of a
declaration are wrapped in. -/
inductive Alike (here there : Nat → SchemaFault → SchemaError) (count : Nat) {α : Type} :
    Except PassError α → Except PassError α → Prop where
  | done (value : α) : Alike here there count (.ok value) (.ok value)
  | duplicate (name : String) :
    Alike here there count (.error (.duplicateType name)) (.error (.duplicateType name))
  | schema (place : Nat) (inside : place < count) (fault : SchemaFault) :
    Alike here there count (.error (.schema (here place fault)))
      (.error (.schema (there place fault)))

namespace Alike
variable {here there : Nat → SchemaFault → SchemaError} {count : Nat} {α β : Type}
  {left right : Except PassError α}

/-- What goes on with the values of alike results goes on alike. -/
theorem bind (alike : Alike here there count left right) {next : α → Except PassError β}
    (same : ∀ value, Alike here there count (next value) (next value)) :
    Alike here there count (left >>= next) (right >>= next) := by
  cases alike with
  | done value => exact same value
  | duplicate name => exact .duplicate name
  | schema place inside fault => exact .schema place inside fault

theorem map (alike : Alike here there count left right) (f : α → β) :
    Alike here there count (left.map f) (right.map f) := by
  cases alike with
  | done value => exact .done (f value)
  | duplicate name => exact .duplicate name
  | schema place inside fault => exact .schema place inside fault

/-- Declarations behind one more are counted from there. -/
theorem shift
    (alike : Alike (fun place => here (place + 1)) (fun place => there (place + 1)) count left right) :
    Alike here there (count + 1) left right := by
  cases alike with
  | done value => exact .done value
  | duplicate name => exact .duplicate name
  | schema place inside fault => exact .schema (place + 1) (Nat.succ_lt_succ inside) fault

end Alike

/-- Declarations with one tag each, called by their places. -/
def labelled (label : Nat → String) (path : String) (arguments : List (List Argument)) :
    List Occurrence :=
  arguments.mapIdx fun place arguments => ⟨label place, [⟨path, arguments⟩]⟩

/-- What the faults of such declarations are wrapped in. -/
def wrapped (label : Nat → String) (path : String) (place : Nat) (fault : SchemaFault) : SchemaError :=
  ⟨label place, path, fault⟩

/-- A path names the tag that asks for a container. -/
def IsTagPath (path : String) : Prop := (Tag.mk path []).name = tagName

instance (path : String) : Decidable (IsTagPath path) := inferInstanceAs (Decidable (_ = _))

section Labelled
variable {label other : Nat → String} {path otherPath : String}

/-- A named container takes nothing from its tag but the arguments. -/
theorem namedTag_request? (declaration : String) (arguments : List Argument) :
    (Tag.mk path arguments).request? .named declaration =
      (Tag.mk "" arguments).request? .named "" := by
  rcases arguments with _ | ⟨name, _ | ⟨home, _ | ⟨size, _ | ⟨more, rest⟩⟩⟩⟩ <;> rfl

theorem request?_of_isTagPath (asks : IsTagPath path) (declaration : String)
    (arguments : List Argument) :
    (Occurrence.mk declaration [⟨path, arguments⟩]).request? .named =
      ((Tag.mk "" arguments).request? .named "").mapError fun fault =>
        ⟨declaration, path, fault⟩ := by
  have named : ((Tag.mk path arguments).name == tagName) = true := beq_iff_eq.mpr asks
  have found : (Occurrence.mk declaration [⟨path, arguments⟩]).tag? = some ⟨path, arguments⟩ :=
    List.find?_cons_of_pos named
  rw [Occurrence.request?, found]
  simp only [namedTag_request?]

/-- Discovery goes the same way whatever the declarations and their tags are called. -/
theorem discover_labelled (asks : IsTagPath path) (asksToo : IsTagPath otherPath)
    (arguments : List (List Argument)) :
    Alike (wrapped label path) (wrapped other otherPath) arguments.length
      (discover .named (labelled label path arguments))
      (discover .named (labelled other otherPath arguments)) := by
  suffices walk : ∀ accepted,
      Alike (wrapped label path) (wrapped other otherPath) arguments.length
        (discover.go .named accepted (labelled label path arguments))
        (discover.go .named accepted (labelled other otherPath arguments)) from walk []
  induction arguments generalizing label other with
  | nil => exact fun accepted => .done accepted.reverse
  | cons first rest ih =>
    intro accepted
    have later (accepted : List Request) :
        Alike (wrapped label path) (wrapped other otherPath) (rest.length + 1) _ _ :=
      (ih accepted).shift
    rw [labelled, labelled, List.mapIdx_cons, List.mapIdx_cons, discover.go, discover.go,
      request?_of_isTagPath asks, request?_of_isTagPath asksToo, List.length_cons]
    cases asked : (Tag.mk "" first).request? .named "" with
    | error fault => exact .schema 0 (Nat.succ_pos _) fault
    | ok found =>
      cases found with
      | none => exact later accepted
      | some request =>
        simp only [Except.mapError]
        split
        · exact .duplicate _
        · exact later _

/-- So does all that a pass makes of them. -/
theorem generate_labelled (asks : IsTagPath path) (asksToo : IsTagPath otherPath)
    (generator : Generator) (arguments : List (List Argument)) :
    Alike (wrapped label path) (wrapped other otherPath) arguments.length
      (generator.generate (labelled label path arguments))
      (generator.generate (labelled other otherPath arguments)) := by
  refine Alike.map ((discover_labelled asks asksToo arguments).bind fun requests => ?_) _
  split
  · exact .done none
  · exact .done (some _)

end Labelled

/-! ## Rows -/

/-- What is asked for in one place: a name, a module path, and a size as a manifest can hold it. -/
structure Row where
  name : String
  home : String
  size : Int
  fits : -0x8000000000000000 ≤ size ∧ size < 0x8000000000000000

/-- The arguments of a row. -/
def Row.arguments (row : Row) : List Argument := [.string row.name, .string row.home, .integer row.size]

/-- A table of a manifest that holds a row. Its keys may be in any order, and more of them may be
there. -/
structure Row.InTable (row : Row) (table : Toml.Table) : Prop where
  name : table.get? "name" = some (.string row.name)
  home : table.get? "namespace" = some (.string row.home)
  size : table.get? "size" = some (.integer row.size)

/-- An expression that is a literal for a text, in invisible groups or in none. -/
def IsText (text : String) : Expr → Prop
  | .literal literal _ => LiteralValue.ofText literal = .text text
  | .grouped inner _ => IsText text inner
  | _ => False

/-- An expression that is a literal for a number, or one behind a minus sign, in invisible groups
or in none. -/
def IsInteger (value : Int) : Expr → Prop
  | .literal literal _ => 0 ≤ value ∧ LiteralValue.ofText literal = .integer value.natAbs
  | .negative literal _ => value ≤ 0 ∧ LiteralValue.ofText literal = .integer value.natAbs
  | .grouped inner _ => IsInteger value inner
  | _ => False

/-- Expressions that hold a row, each one of its values. -/
def Row.InItems (row : Row) : List Expr → Prop
  | [name, home, size] => IsText row.name name ∧ IsText row.home home ∧ IsInteger row.size size
  | _ => False

/-- A tuple that holds a row. -/
def Row.InTuple (row : Row) : Expr → Prop
  | .tuple items _ => row.InItems items
  | _ => False

instance decidableIsText (text : String) : (expr : Expr) → Decidable (IsText text expr)
  | .literal .. => inferInstanceAs (Decidable (_ = _))
  | .grouped inner _ => decidableIsText text inner
  | .negative .. | .parenthesized .. | .tuple .. | .path .. | .compound .. => .isFalse id

instance decidableIsInteger (value : Int) : (expr : Expr) → Decidable (IsInteger value expr)
  | .literal .. | .negative .. => inferInstanceAs (Decidable (_ ∧ _))
  | .grouped inner _ => decidableIsInteger value inner
  | .parenthesized .. | .tuple .. | .path .. | .compound .. => .isFalse id

instance (row : Row) : (items : List Expr) → Decidable (row.InItems items)
  | [_, _, _] => inferInstanceAs (Decidable (_ ∧ _))
  | [] | [_] | [_, _] | _ :: _ :: _ :: _ :: _ => .isFalse id

instance (row : Row) : (expr : Expr) → Decidable (row.InTuple expr)
  | .tuple items _ => inferInstanceAs (Decidable (row.InItems items))
  | .literal .. | .negative .. | .parenthesized .. | .path .. | .grouped .. | .compound .. => .isFalse id

section Rows
variable {row : Row} {rows : List Row}

theorem entryArguments_of_inTable {table : Toml.Table} (holds : row.InTable table) :
    Manifest.entryArguments table Manifest.argumentKeys = row.arguments := by
  simp only [Manifest.argumentKeys, Manifest.entryArguments, holds.name, holds.home, holds.size]
  rfl

/-- A manifest asks for what its tables give, each under the number of its place. -/
theorem occurrences_eq_labelled (manifest : Manifest) :
    manifest.occurrences = labelled manifest.entryLabel qualifiedTagName
      (manifest.entries.map (Manifest.entryArguments · Manifest.argumentKeys)) := by
  rw [labelled, Manifest.occurrences]
  refine List.ext_getElem? fun place => ?_
  simp only [List.getElem?_mapIdx, List.getElem?_map, Option.map_map, Function.comp_def]

/-- A manifest whose tables hold rows asks for what is in the rows. -/
theorem occurrences_of_inTable {manifest : Manifest}
    (holds : List.Forall₂ Row.InTable rows manifest.entries) :
    manifest.occurrences =
      labelled manifest.entryLabel qualifiedTagName (rows.map Row.arguments) := by
  have arguments : manifest.entries.map (Manifest.entryArguments · Manifest.argumentKeys) =
      rows.map Row.arguments := by
    rw [← List.forall₂_eq_eq_eq, List.forall₂_map_left_iff, List.forall₂_map_right_iff]
    exact holds.flip.imp fun _ _ held => entryArguments_of_inTable held
  rw [occurrences_eq_labelled, arguments]

theorem ofExpr_of_isText {text : String} {expr : Expr} (isText : IsText text expr) :
    Argument.ofExpr expr = .string text := by
  fun_induction IsText text expr with
  | case1 literal trees =>
    have read : LiteralValue.ofText literal = .text text := isText
    simp only [Argument.ofExpr, Argument.ofLiteral?, read, Option.getD_some]
  | case2 inner trees ih => exact ih isText
  | case3 => exact isText.elim

theorem ofExpr_of_isInteger {value : Int} {expr : Expr} (isInteger : IsInteger value expr)
    (fits : -0x8000000000000000 ≤ value ∧ value < 0x8000000000000000) :
    Argument.ofExpr expr = .integer value := by
  have small : value.natAbs ≤ maxInteger := by
    unfold maxInteger
    omega
  fun_induction IsInteger value expr with
  | case1 literal trees =>
    obtain ⟨positive, read⟩ := isInteger
    have same : (value.natAbs : Int) = value := Int.natAbs_of_nonneg positive
    simp only [Argument.ofExpr, Argument.ofLiteral?, read, if_pos small, Option.getD_some, same]
  | case2 literal trees =>
    obtain ⟨negative, read⟩ := isInteger
    have same : -(value.natAbs : Int) = value := by omega
    simp only [Argument.ofExpr, Argument.ofNegative?, read, if_pos small, Option.getD_some, same]
  | case3 inner trees ih => exact ih isInteger
  | case4 => exact isInteger.elim

theorem map_ofExpr_of_inItems {items : List Expr} (holds : row.InItems items) :
    items.map Argument.ofExpr = row.arguments := by
  match items, holds with
  | [name, home, size], ⟨isName, isHome, isSize⟩ =>
    rw [List.map_cons, List.map_cons, List.map_singleton, ofExpr_of_isText isName,
      ofExpr_of_isText isHome, ofExpr_of_isInteger isSize row.fits, Row.arguments]

theorem entry_of_inTuple {expr : Expr} (holds : row.InTuple expr) (index : Nat) :
    Entry.ofExpr index expr = .ok ⟨.tagged (entryLabel index) row.arguments, expr.span⟩ := by
  cases expr with
  | tuple items trees => rw [Entry.ofExpr, map_ofExpr_of_inItems holds]
  | _ => exact holds.elim

/-- A list of tuples that hold rows asks for what is in the rows. -/
theorem readEntries_of_inTuple {trees : List TokenTree} {exprs : List Expr}
    (parsed : Source.readExprs trees = some exprs) (holds : List.Forall₂ Row.InTuple rows exprs) :
    ∃ entries, readEntries trees = .ok entries ∧
      entries.map Entry.occurrence = labelled entryLabel tagName (rows.map Row.arguments) := by
  have walk : ∀ start, ∃ entries,
      ((exprs.zipIdx start).mapM fun place => Entry.ofExpr place.2 place.1) = .ok entries ∧
        entries.map Entry.occurrence =
          labelled (fun place => entryLabel (start + place)) tagName (rows.map Row.arguments) := by
    clear parsed
    induction holds with
    | nil => exact fun _ => ⟨[], rfl, rfl⟩
    | @cons row expr rows exprs first _ ih =>
      intro start
      obtain ⟨entries, read, asked⟩ := ih (start + 1)
      refine ⟨⟨.tagged (entryLabel start) row.arguments, expr.span⟩ :: entries, ?_, ?_⟩
      · rw [List.zipIdx_cons, List.mapM_cons, entry_of_inTuple first, read]
        rfl
      · rw [List.map_cons, asked, List.map_cons, labelled, labelled, List.mapIdx_cons]
        simp only [Nat.add_right_comm start 1, Nat.add_assoc, Nat.add_zero]
        rfl
  obtain ⟨entries, read, asked⟩ := walk 0
  simp only [Nat.zero_add] at asked
  refine ⟨entries, ?_, asked⟩
  rw [readEntries, exprsOf, parsed]
  exact read

end Rows

/-- Rows ask for the same wherever they stand. A manifest whose tables hold them and a list of tuples
that hold them, each handed to one worker, give the same text or none, fail for the same type, or fail
for the same fault of the same row; what the row and the tag are called is all that differs. -/
theorem manifests_and_lists_agree (generator : Generator) (rows : List Row) (manifest : Manifest)
    (inTables : List.Forall₂ Row.InTable rows manifest.entries) (trees : List TokenTree)
    (exprs : List Expr) (parsed : Source.readExprs trees = some exprs)
    (inTuples : List.Forall₂ Row.InTuple rows exprs) :
    ∃ entries, readEntries trees = .ok entries ∧
      Alike (wrapped manifest.entryLabel qualifiedTagName) (wrapped entryLabel tagName) rows.length
        ((generator.withWorkers 1).generate manifest.occurrences)
        ((generator.withWorkers 1).generate (entries.map Entry.occurrence)) := by
  obtain ⟨entries, read, asked⟩ := readEntries_of_inTuple parsed inTuples
  refine ⟨entries, read, ?_⟩
  have qualified : IsTagPath qualifiedTagName := by decide +kernel
  have plain : IsTagPath tagName := by decide +kernel
  have count : rows.length = (rows.map Row.arguments).length := (List.length_map _).symm
  rw [occurrences_of_inTable inTables, asked, count]
  exact generate_labelled qualified plain (generator.withWorkers 1) (rows.map Row.arguments)

/-- A pair, and a container of a negative size behind it: both fail for the size of the second row. -/
theorem manifests_and_lists_agree_negative :
    let rows : List Row := [⟨"Pair", "m", 2, by decide⟩, ⟨"Debt", "m", -1, by decide⟩]
    let manifest : Manifest :=
      ⟨.initial, [[("name", .string "Pair"), ("namespace", .string "m"), ("size", .integer 2)],
        [("size", .integer (-1)), ("why", .boolean true), ("namespace", .string "m"),
          ("name", .string "Debt")]], some "two.toml"⟩
    ∃ trees exprs entries, tokensOf "(\"Pair\", \"m\", 2), (r\"Debt\", \"m\", -0x1)" = .ok trees ∧
      List.Forall₂ Row.InTable rows manifest.entries ∧
      Source.readExprs trees = some exprs ∧ List.Forall₂ Row.InTuple rows exprs ∧
      readEntries trees = .ok entries ∧
      Alike (wrapped manifest.entryLabel qualifiedTagName) (wrapped entryLabel tagName) rows.length
        (Generator.initial.generate manifest.occurrences)
        (Generator.initial.generate (entries.map Entry.occurrence)) ∧
      Generator.initial.generate manifest.occurrences =
        .error (.schema ⟨"two.toml: [[struct_array]] #2", "struct_array::struct_array",
          .sizeOutOfRange (-1)⟩) := by
  intro rows manifest
  have inTables : List.Forall₂ Row.InTable rows manifest.entries :=
    .cons ⟨rfl, rfl, rfl⟩ (.cons ⟨rfl, rfl, rfl⟩ .nil)
  have parsed : ((tokensOf "(\"Pair\", \"m\", 2), (r\"Debt\", \"m\", -0x1)").toOption.bind
      fun trees => (Source.readExprs trees).bind fun exprs =>
        if List.Forall₂ Row.InTuple rows exprs then some () else none).isSome = true := by
    decide +kernel
  obtain ⟨_, found⟩ := Option.isSome_iff_exists.mp parsed
  obtain ⟨trees, lexed, found⟩ := Option.bind_eq_some_iff.mp found
  obtain ⟨exprs, read, found⟩ := Option.bind_eq_some_iff.mp found
  obtain ⟨inTuples, _⟩ := Option.ite_none_right_eq_some.mp found
  obtain ⟨entries, listed, alike⟩ :=
    manifests_and_lists_agree .initial rows manifest inTables trees exprs read inTuples
  refine ⟨trees, exprs, entries, ?_, inTables, read, inTuples, listed, alike, ?_⟩
  · cases tokens : tokensOf "(\"Pair\", \"m\", 2), (r\"Debt\", \"m\", -0x1)" with
    | error error =>
      rw [tokens] at lexed
      cases lexed
    | ok found =>
      rw [tokens] at lexed
      cases lexed
      rfl
  · decide +kernel

end SlotArray
