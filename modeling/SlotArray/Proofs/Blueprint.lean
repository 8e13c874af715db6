import SlotArray.Definition
import SlotArray.Proofs.SlotTables

/-! What the text of a container says about its operations. Each operation is found by the line its
function begins with, and its lines are read: the fields it gets at, and how it is done with them. -/
namespace SlotArray
open SlotArray.Text SlotArray.Definition Outline

/-- The operations of a container, as far as its text decides them. -/
structure Blueprint where
  /-- The fields of the type. -/
  fields : List String
  /-- The length the type gives itself. -/
  ownLength : Nat
  /-- The fields that are filled from calls, and the arguments of the calls. -/
  calls : List (String × Nat)
  /-- The fields that are answered, by index. -/
  shared : List (Nat × String)
  /-- The fields that are lent for writing, by index. -/
  lent : List (Nat × String)
  /-- The fields that are stored into, by index. -/
  replaced : List (Nat × String)
  /-- The length that is reported where nothing can be stored. -/
  reported : Nat
  /-- The fields that are moved out. -/
  moved : List String
  /-- The fields that are copied out. -/
  cloned : List String
  /-- The length that is reported where an index answers nothing, and where it lends nothing. -/
  indexLength : Nat
  indexMutLength : Nat
  /-- The length among the operations that all containers have. -/
  commonLength : Nat
deriving DecidableEq

namespace Blueprint

/-! ## Reading -/

/-- What the head of a function of the type begins with. -/
def ownHead : List Char := [' ', ' ', ' ', ' ', 'p', 'u', 'b', ' ', 'f', 'n', ' ']

/-- What the head of a function of a trait begins with. -/
def commonHead : List Char := [' ', ' ', ' ', ' ', 'f', 'n', ' ']

/-- What the line that closes a function begins with. -/
def closing : List Char := [' ', ' ', ' ', ' ', '\x7d']

/-- The lines up to the one that closes a function. -/
def untilClosed : List String → List String
  | [] => []
  | line :: rest => if closing.isPrefixOf line.toList then [] else line :: untilClosed rest

/-- The functions of a block with their names, each with the lines inside it. -/
def functions (head : List Char) : List String → List (String × List String)
  | [] => []
  | line :: rest =>
    match behind? head line.toList with
    | some text => (String.ofList (text.takeWhile (· ≠ '(')), untilClosed rest) :: functions head rest
    | none => functions head rest

/-- What stands between a line that opens and a line that closes. -/
def inside? (opens closes : String) (lines : List String) : Option (List String) :=
  if lines.head? = some opens ∧ lines.getLast? = some closes then some lines.tail.dropLast else none

/-- The arms of a function that is a `match`, and the line behind them. -/
def match? (frame : Frame) (body : List String) : Option (List (Nat × String) × String) :=
  (inside? "        match index \x7b" "        \x7d" body).bind (arms? frame)

/-- The fields of the vector that a function ends with, each with something behind it. -/
def vector? (after : String) (body : List String) : Option (List String) :=
  body.getLast?.bind fun last =>
    (Frame.name? ⟨"        ::std::vec![".toList, "]".toList⟩ last.toList).bind fun items =>
      listed? after items.toList

/-- The length that an indexing operator reports, if it answers what a function of the type does. -/
def indexing? (name function : String) (body : List String) : Option Nat :=
  match body with
  | [call, found, missing, closes] =>
    if call = "        match " ++ name ++ "::" ++ function ++ "(self, index) \x7b" ∧
        found = "            ::core::option::Option::Some(value) => value," ∧
        closes = "        \x7d" then
      Frame.number?
        ⟨"            ::core::option::Option::None => ::struct_array::out_of_range(index, ".toList,
          "),".toList⟩ missing.toList
    else none
  | _ => none

/-- What stands in front of the length that the type gives itself. -/
def ownLengthFront : List Char :=
  [' ', ' ', ' ', ' ', 'p', 'u', 'b', ' ', 'c', 'o', 'n', 's', 't', ' ', 'L', 'E', 'N', 'G', 'T', 'H',
    ':', ' ', 'u', 's', 'i', 'z', 'e', ' ', '=', ' ']

/-- What stands in front of the length among what all containers have. -/
def commonLengthFront : List Char :=
  [' ', ' ', ' ', ' ', 'c', 'o', 'n', 's', 't', ' ', 'L', 'E', 'N', 'G', 'T', 'H', ':', ' ', 'u', 's',
    'i', 'z', 'e', ' ', '=', ' ']

/-- The length behind a text, from the first line that gives one. -/
def length? (front : List Char) (lines : List String) : Option Nat :=
  lines.findSome? fun line => Frame.number? ⟨front, [';']⟩ line.toList

/-- What the text of a container says, if it can be read. What all containers can do has to be done by
the type's own functions. -/
def read? (d : Declaration) : Option Blueprint := do
  let own := functions ownHead d.inherentLines
  let operators := functions commonHead d.operatorLines
  let fields ← (d.typeLines.tail.takeWhile (· ≠ "\x7d")).mapM (field? d.element)
  let ownLength ← length? ownLengthFront d.inherentLines
  let calls ← ((own.lookup "from_fn").bind (inside? "        Self \x7b" "        \x7d")).bind
    (·.mapM call?)
  let (shared, sharedRest) ← (own.lookup "get").bind (match? sharedFrame)
  let (lent, lentRest) ← (own.lookup "get_mut").bind (match? lentFrame)
  let (replaced, replacedRest) ← (own.lookup "set").bind (match? replacedFrame)
  let reported ← errorFrame.number? replacedRest.toList
  let moved ← (own.lookup "into_vec").bind (vector? "")
  let cloned ← (own.lookup "to_vec").bind (vector? ".clone()")
  let indexLength ← (operators.lookup "index").bind (indexing? d.name "get")
  let indexMutLength ← (operators.lookup "index_mut").bind (indexing? d.name "get_mut")
  let commonLength ← length? commonLengthFront d.traitLines
  if sharedRest = nothingLine ∧ lentRest = nothingLine ∧
      functions commonHead d.traitLines =
        [("get", ["        " ++ d.name ++ "::get(self, index)"]),
          ("get_mut", ["        " ++ d.name ++ "::get_mut(self, index)"]),
          ("into_vec", ["        " ++ d.name ++ "::into_vec(self)"])] then
    some { fields, ownLength, calls, shared, lent, replaced, reported, moved, cloned, indexLength,
           indexMutLength, commonLength }
  else none

/-- What the text of a container of a size says, as is proved below. -/
def ofSize (size : Nat) : Blueprint where
  fields := slotFields size
  ownLength := size
  calls := (List.range size).map fun i => (slotField i, i)
  shared := slotArms size
  lent := slotArms size
  replaced := slotArms size
  reported := size
  moved := slotFields size
  cloned := slotFields size
  indexLength := size
  indexMutLength := size
  commonLength := size

/-! ## Finding functions -/

section Finding
variable {head front text : List Char} {line name : String} {lines before : List String}

/-- Whether a line begins with a text. -/
def Begins (text : List Char) (line : String) : Prop := text <+: line.toList

/-- A line that begins the function of a name. -/
def Heads (head : List Char) (name line : String) : Prop :=
  (behind? head line.toList).map (fun text => String.ofList (text.takeWhile (· ≠ '('))) = some name

/-- Neither text goes on as the other does. -/
def Apart (text other : List Char) : Prop := ¬ text <+: other ∧ ¬ other <+: text

instance (text other : List Char) : Decidable (Apart text other) := inferInstanceAs (Decidable (_ ∧ _))

theorem not_begins_literal (other : ¬ text <+: front) : ¬ Begins text (String.ofList front) := by
  rwa [Begins, String.toList_ofList]

theorem not_begins_append (apart : Apart text front) (rest : String) :
    ¬ Begins text (String.ofList front ++ rest) := by
  rw [Begins, String.toList_append, String.toList_ofList]
  intro begins
  rcases List.prefix_or_prefix_of_prefix begins (List.prefix_append _ _) with short | long
  · exact apart.1 short
  · exact apart.2 long

private theorem heads_of_toList (begins : head <+: front ∧ '(' ∈ front.drop head.length)
    (named : String.ofList ((front.drop head.length).takeWhile (· ≠ '(')) = name) {rest : List Char}
    (written : line.toList = front ++ rest) : Heads head name line := by
  obtain ⟨⟨more, rfl⟩, mem⟩ := begins
  rw [List.drop_left] at mem named
  have stop : (more ++ rest).takeWhile (· ≠ '(') = more.takeWhile (· ≠ '(') := by
    rw [List.takeWhile_append, if_neg]
    intro all
    have every := List.takeWhile_eq_self_iff.mp
      ((List.takeWhile_sublist _).eq_of_length all) '(' mem
    simp at every
  rw [Heads, written, List.append_assoc, behind?_eq_some_iff.mpr rfl, Option.map_some, stop, named]

theorem heads_literal (begins : head <+: front ∧ '(' ∈ front.drop head.length)
    (named : String.ofList ((front.drop head.length).takeWhile (· ≠ '(')) = name) :
    Heads head name (String.ofList front) :=
  heads_of_toList begins named (by rw [String.toList_ofList, List.append_nil])

theorem heads_append (begins : head <+: front ∧ '(' ∈ front.drop head.length)
    (named : String.ofList ((front.drop head.length).takeWhile (· ≠ '(')) = name) (rest : String) :
    Heads head name (String.ofList front ++ rest) :=
  heads_of_toList begins named (by rw [String.toList_append, String.toList_ofList])

theorem functions_nil (head : List Char) : functions head [] = [] := rfl

theorem functions_other (lines : List String) (other : ¬ Begins head line) :
    functions head (line :: lines) = functions head lines := by
  have none : behind? head line.toList = none :=
    if_neg fun begins => other (List.isPrefixOf_iff_prefix.mp begins)
  rw [functions, none]

theorem functions_head (name : String) (lines : List String) (heads : Heads head name line) :
    functions head (line :: lines) = (name, untilClosed lines) :: functions head lines := by
  obtain ⟨text, behind, rfl⟩ := Option.map_eq_some_iff.mp heads
  rw [functions, behind]

theorem untilClosed_other (lines : List String) (other : ¬ Begins closing line) :
    untilClosed (line :: lines) = line :: untilClosed lines :=
  if_neg fun closes => other (List.isPrefixOf_iff_prefix.mp closes)

theorem untilClosed_closing (lines : List String) : untilClosed ("    \x7d" :: lines) = [] := by
  have closes : closing.isPrefixOf "    \x7d".toList = true := by decide
  rw [untilClosed, if_pos closes]

/-- Lines that are far enough inside a function. -/
def Deep (lines : List String) : Prop := ∀ line ∈ lines, ∃ rest, line = "            " ++ rest

theorem Deep.not_begins (deep : Deep before) (apart : Apart text inset) {line : String}
    (mem : line ∈ before) : ¬ Begins text line := by
  obtain ⟨rest, rfl⟩ := deep line mem
  exact not_begins_append apart rest

theorem Deep.functions_append (deep : Deep before) (apart : Apart head inset) (lines : List String) :
    functions head (before ++ lines) = functions head lines := by
  induction before with
  | nil => rfl
  | cons line before ih =>
    rw [List.cons_append, functions_other _ (deep.not_begins apart List.mem_cons_self)]
    exact ih fun later mem => deep later (List.mem_cons_of_mem line mem)

theorem Deep.untilClosed_append (deep : Deep before) (lines : List String) :
    untilClosed (before ++ lines) = before ++ untilClosed lines := by
  induction before with
  | nil => rfl
  | cons line before ih =>
    have goesOn : ¬ Begins closing line := deep.not_begins (by decide) List.mem_cons_self
    rw [List.cons_append, untilClosed_other _ goesOn, List.cons_append]
    exact congrArg _ (ih fun later mem => deep later (List.mem_cons_of_mem line mem))

theorem deep_range {line : Nat → String} (deep : ∀ i, ∃ rest, line i = "            " ++ rest)
    (size : Nat) : Deep ((List.range size).map line) := by
  intro text mem
  obtain ⟨i, _, rfl⟩ := List.mem_map.mp mem
  exact deep i

theorem Deep.concat (deep : Deep before) (last : ∃ rest, line = "            " ++ rest) :
    Deep (before ++ [line]) := by
  intro text mem
  rcases List.mem_append.mp mem with mem | mem
  · exact deep text mem
  · rwa [List.mem_singleton.mp mem]

theorem length?_other (lines : List String) (other : ¬ Begins front line) :
    length? front (line :: lines) = length? front lines := by
  have none : behind? front line.toList = none :=
    if_neg fun begins => other (List.isPrefixOf_iff_prefix.mp begins)
  rw [length?, List.findSome?_cons, Frame.number?, none]
  rfl

theorem length?_found (front : List Char) (length : Nat) (lines : List String) :
    length? front ((String.ofList front ++ (toString length ++ ";")) :: lines) = some length := by
  have feed : ";".toList = [';'] := by decide
  have reads : Frame.number? ⟨front, [';']⟩ (front ++ (Nat.toDigits 10 length ++ [';'])) = some length :=
    number?_digits length rfl
  rw [length?, List.findSome?_cons, String.toList_append, String.toList_append, String.toList_ofList,
    Nat.toString_eq_repr, Nat.toList_repr, feed, reads]

theorem inside?_eq_some (opens closes : String) (lines : List String) :
    inside? opens closes (opens :: (lines ++ [closes])) = some lines := by
  have last : (opens :: (lines ++ [closes])).getLast? = some closes := by
    rw [← List.cons_append, List.getLast?_concat]
  rw [inside?, if_pos ⟨rfl, last⟩, List.tail_cons, List.dropLast_concat]

end Finding

/-! ## What is found -/

section Found
variable (d : Declaration)

theorem deep_fromFnLines (size : Nat) : Deep (fromFnLines size) := by
  refine deep_range (fun i => ?_) size
  simp only [String.append_assoc]
  exact ⟨_, rfl⟩

theorem deep_getArms (size : Nat) : Deep (getArms size) := by
  refine Deep.concat (deep_range (fun i => ?_) size) ⟨"_ => ::core::option::Option::None,", by decide⟩
  simp only [String.append_assoc]
  exact ⟨_, rfl⟩

theorem deep_getMutArms (size : Nat) : Deep (getMutArms size) := by
  refine Deep.concat (deep_range (fun i => ?_) size) ⟨"_ => ::core::option::Option::None,", by decide⟩
  simp only [String.append_assoc]
  exact ⟨_, rfl⟩

theorem deep_setArms (size : Nat) : Deep (setArms size) := by
  refine Deep.concat (deep_range (fun i => ?_) size) ?_
  · simp only [String.append_assoc]
    exact ⟨_, rfl⟩
  · have front : "            _ => ::core::result::Result::Err(::struct_array::IndexOutOfRange::new(index, " =
        "            " ++
          "_ => ::core::result::Result::Err(::struct_array::IndexOutOfRange::new(index, " := by decide
    rw [front]
    simp only [String.append_assoc]
    exact ⟨_, rfl⟩

theorem deep_debugLines (size : Nat) : Deep (debugLines size) := by
  refine deep_range (fun i => ?_) size
  have front : "            .entry(&self." = "            " ++ ".entry(&self." := by decide
  rw [front]
  simp only [String.append_assoc]
  exact ⟨_, rfl⟩

/-- The functions of the type, each with what stands in it. -/
theorem functions_inherentLines : functions ownHead d.inherentLines =
    [("from_fn", "        Self \x7b" :: (fromFnLines d.size ++ ["        \x7d"])),
      ("get", "        match index \x7b" :: (getArms d.size ++ ["        \x7d"])),
      ("get_mut", "        match index \x7b" :: (getMutArms d.size ++ ["        \x7d"])),
      ("set", "        match index \x7b" :: (setArms d.size ++ ["        \x7d"])),
      ("into_vec", ["        ::std::vec![" ++ (slotList d.size "" ++ "]")]),
      ("to_vec", ["    where", "        " ++ (d.element ++ ": ::core::clone::Clone,"), "    \x7b",
        "        ::std::vec![" ++ (slotList d.size ".clone()" ++ "]")])] := by
  have apart : Apart ownHead inset := by decide
  unfold Declaration.inherentLines
  simp only [List.append_assoc, List.cons_append, List.nil_append, String.append_assoc]
  simp (disch := first
      | (refine not_begins_literal ?_; decide)
      | (refine not_begins_append ?_ _; decide)
      | (refine heads_append ?_ ?_ _; decide; decide)) only
    [functions_other, functions_head "from_fn", functions_head "get", functions_head "get_mut",
      functions_head "set", functions_head "into_vec", functions_head "to_vec",
      (deep_fromFnLines d.size).functions_append apart, (deep_getArms d.size).functions_append apart,
      (deep_getMutArms d.size).functions_append apart, (deep_setArms d.size).functions_append apart,
      untilClosed_other, untilClosed_closing, (deep_fromFnLines d.size).untilClosed_append,
      (deep_getArms d.size).untilClosed_append, (deep_getMutArms d.size).untilClosed_append,
      (deep_setArms d.size).untilClosed_append, functions_nil]

/-- The functions that are operators. -/
theorem functions_operatorLines : functions commonHead d.operatorLines =
    [("index", (d.indexBody "get").take 4), ("index_mut", (d.indexBody "get_mut").take 4),
      ("fmt", "        f.debug_list()" :: (debugLines d.size ++ ["            .finish()"]))] := by
  have apart : Apart commonHead inset := by decide
  unfold Declaration.operatorLines Declaration.indexBody
  simp only [List.cons_append, List.nil_append, String.append_assoc]
  simp (disch := first
      | (refine not_begins_literal ?_; decide)
      | (refine not_begins_append ?_ _; decide)
      | (refine heads_literal ?_ ?_; decide; decide)
      | (refine heads_append ?_ ?_ _; decide; decide)) only
    [functions_other, functions_head "index", functions_head "index_mut", functions_head "fmt",
      (deep_debugLines d.size).functions_append apart, untilClosed_other, untilClosed_closing,
      (deep_debugLines d.size).untilClosed_append, functions_nil]
  rfl

/-- The functions that make the type one of the containers. -/
theorem functions_traitLines : functions commonHead d.traitLines =
    [("get", ["        " ++ d.name ++ "::get(self, index)"]),
      ("get_mut", ["        " ++ d.name ++ "::get_mut(self, index)"]),
      ("into_vec", ["        " ++ d.name ++ "::into_vec(self)"])] := by
  unfold Declaration.traitLines
  simp only [String.append_assoc]
  simp (disch := first
      | (refine not_begins_literal ?_; decide)
      | (refine not_begins_append ?_ _; decide)
      | (refine heads_append ?_ ?_ _; decide; decide)) only
    [functions_other, functions_head "get", functions_head "get_mut", functions_head "into_vec",
      untilClosed_other, untilClosed_closing, functions_nil]

theorem typeLines_mapM :
    (d.typeLines.tail.takeWhile (· ≠ "\x7d")).mapM (field? d.element) = some (slotFields d.size) := by
  have ordinary : ∀ line ∈ fieldLines d.size d.element, decide (line ≠ "\x7d") = true := by
    intro line mem
    obtain ⟨i, _, rfl⟩ := List.mem_map.mp mem
    refine decide_eq_true fun same => ?_
    have texts := congrArg String.toList same
    simp only [String.append_assoc, String.toList_append] at texts
    simp at texts
  have fields : d.typeLines.tail.takeWhile (· ≠ "\x7d") = fieldLines d.size d.element := by
    rw [Declaration.typeLines, List.append_assoc, List.singleton_append, List.tail_cons,
      List.takeWhile_append_of_pos ordinary, List.takeWhile_cons_of_neg (by simp), List.append_nil]
  rw [fields, fieldLines_mapM]

theorem length?_inherentLines : length? ownLengthFront d.inherentLines = some d.size := by
  unfold Declaration.inherentLines
  simp only [List.append_assoc, List.cons_append, List.nil_append, String.append_assoc]
  rw [length?_other _ (not_begins_append (by decide) _), length?_other _ (not_begins_literal (by decide))]
  exact length?_found ownLengthFront d.size _

theorem length?_traitLines : length? commonLengthFront d.traitLines = some d.size := by
  unfold Declaration.traitLines
  simp only [String.append_assoc]
  rw [length?_other _ (not_begins_append (by decide) _), length?_other _ (not_begins_append (by decide) _),
    length?_other _ (not_begins_literal (by decide))]
  exact length?_found commonLengthFront d.size _

theorem vector?_eq_some {after : String} (clean : ',' ∉ after.toList) (before : List String) :
    vector? after (before ++ ["        ::std::vec![" ++ (slotList d.size after ++ "]")]) =
      some (slotFields d.size) := by
  have text : ("        ::std::vec![" ++ (slotList d.size after ++ "]")).toList =
      "        ::std::vec![".toList ++ ((slotList d.size after).toList ++ "]".toList) := by
    simp only [String.toList_append]
  rw [vector?, List.getLast?_concat, Option.bind_some, text, name?_eq_some_iff.mpr rfl, Option.bind_some,
    slotList_listed? d.size clean]

theorem indexing?_eq_some (function : String) :
    indexing? d.name function ((d.indexBody function).take 4) = some d.size := by
  have text : ("            ::core::option::Option::None => ::struct_array::out_of_range(index, " ++
      toString d.size ++ "),").toList =
      "            ::core::option::Option::None => ::struct_array::out_of_range(index, ".toList ++
        (Nat.toDigits 10 d.size ++ "),".toList) := by
    simp only [String.toList_append, List.append_assoc, Nat.toString_eq_repr, Nat.toList_repr]
  have reads : Frame.number?
      ⟨"            ::core::option::Option::None => ::struct_array::out_of_range(index, ".toList,
        "),".toList⟩ _ = some d.size := number?_digits d.size (by decide)
  rw [Declaration.indexBody, List.take_succ_cons, List.take_succ_cons, List.take_succ_cons,
    List.take_succ_cons, List.take_zero, indexing?, if_pos ⟨rfl, rfl, rfl⟩, text, reads]

/-- The text of a container can be read, and says of each slot what belongs to it. -/
theorem read?_eq_some : read? d = some (ofSize d.size) := by
  have moved : vector? "" ["        ::std::vec![" ++ (slotList d.size "" ++ "]")] = _ :=
    vector?_eq_some d (by decide) []
  have cloned : vector? ".clone()" ["    where", "        " ++ (d.element ++ ": ::core::clone::Clone,"),
      "    \x7b", "        ::std::vec![" ++ (slotList d.size ".clone()" ++ "]")] = _ :=
    vector?_eq_some d (by decide) [_, _, _]
  simp only [read?, functions_inherentLines, functions_operatorLines, functions_traitLines,
    typeLines_mapM, length?_inherentLines, length?_traitLines, List.lookup_cons, String.reduceBEq,
    match?, inside?_eq_some, fromFnLines_mapM, getArms_arms?, getMutArms_arms?,
    setArms_arms?, errorLine_number?, moved, cloned, indexing?_eq_some, Option.bind_eq_bind, Option.bind_some,
    and_self, if_true]
  rfl

end Found

end Blueprint
end SlotArray
