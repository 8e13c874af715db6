import SlotArray.Proofs.Rows

/-! A document read back line by line. The reader knows nothing of how definitions are written: it
keeps the blocks that are open and takes down the names, lengths and fields it passes. -/
namespace SlotArray.Outline
open SlotArray.Text

/-- What a line says, besides opening and closing blocks. -/
inductive Mark where
  | module (name : String)
  | type (name : String)
  | length (value : Nat)
  | field
  | nothing
deriving DecidableEq

/-- A line as far as the reader looks at it: whether it begins with a closing brace, whether it
ends in an opening one, and what it says. -/
structure Line where
  closes : Bool
  opens : Bool
  mark : Mark
deriving DecidableEq

/-- What stands in front of something that a line says, and what stands behind it. -/
structure Frame where
  front : List Char
  back : List Char

/-- The line that opens a module: `pub mod`, its name, and a brace. -/
def moduleFrame : Frame := ⟨['p', 'u', 'b', ' ', 'm', 'o', 'd', ' '], [' ', '\x7b']⟩

/-- The line that declares a type: `pub struct`, its name, `<T>`, and a brace. -/
def typeFrame : Frame :=
  ⟨['p', 'u', 'b', ' ', 's', 't', 'r', 'u', 'c', 't', ' '], ['<', 'T', '>', ' ', '\x7b']⟩

/-- The line that gives a type's length: `pub const LENGTH: usize =`, and the number. -/
def lengthFrame : Frame :=
  ⟨['p', 'u', 'b', ' ', 'c', 'o', 'n', 's', 't', ' ', 'L', 'E', 'N', 'G', 'T', 'H', ':', ' ', 'u', 's',
    'i', 'z', 'e', ' ', '=', ' '], [';']⟩

/-- The line that declares a field: `_value`, its number, and `: T,`. -/
def fieldFrame : Frame := ⟨['_', 'v', 'a', 'l', 'u', 'e'], [':', ' ', 'T', ',']⟩

/-- What follows `front` at the beginning of a text. -/
def behind? (front text : List Char) : Option (List Char) :=
  if front.isPrefixOf text then some (text.drop front.length) else none

/-- The name that stands in a frame. -/
def Frame.name? (frame : Frame) (text : List Char) : Option String :=
  (behind? frame.front text).bind fun rest =>
    if frame.back.isSuffixOf rest then
      some (String.ofList (rest.take (rest.length - frame.back.length)))
    else none

/-- The number that stands in a frame, in digits. -/
def Frame.number? (frame : Frame) (text : List Char) : Option Nat :=
  (behind? frame.front text).bind fun rest =>
    if rest.takeWhile Char.isDigit ≠ [] ∧ rest.dropWhile Char.isDigit = frame.back then
      some (Nat.ofDigitChars 10 (rest.takeWhile Char.isDigit) 0)
    else none

/-- What a line says, its indentation left out. -/
def mark (text : List Char) : Mark :=
  match moduleFrame.name? text, typeFrame.name? text, lengthFrame.number? text,
    fieldFrame.number? text with
  | some name, _, _, _ => .module name
  | none, some name, _, _ => .type name
  | none, none, some value, _ => .length value
  | none, none, none, some _ => .field
  | none, none, none, none => .nothing

/-- A line as the reader sees it. -/
def line (row : List Char) : Line :=
  let text := trimStart row
  ⟨text.head? = some '\x7d', text.getLast? = some '\x7b', mark text⟩

/-- A block that is open. -/
inductive Block where
  | module (name : String)
  | type
  | other
deriving DecidableEq

/-- The block that a line opens, by what it says. -/
def Mark.block : Mark → Block
  | .module name => .module name
  | .type _ => .type
  | _ => .other

def Block.module? : Block → Option String
  | .module name => some name
  | _ => none

/-- The modules that are open, the outermost first, if `blocks` has the innermost block first. -/
def openModules (blocks : List Block) : List String :=
  (blocks.filterMap Block.module?).reverse

/-- A type that was passed: the modules around it, its name, the first length given after it, and
the number of its fields. -/
structure TypeEntry where
  home : List String
  name : String
  length : Option Nat
  fields : Nat
deriving DecidableEq

/-- The blocks that are open, the innermost first, and the types passed, the last one first. -/
structure Reader where
  blocks : List Block
  entries : List TypeEntry
deriving DecidableEq

/-- Takes down what a line says. -/
def Reader.note (reader : Reader) : Mark → Reader
  | .type name => { reader with entries := ⟨openModules reader.blocks, name, none, 0⟩ :: reader.entries }
  | .length value =>
    match reader.entries with
    | ⟨home, name, none, fields⟩ :: earlier =>
      { reader with entries := ⟨home, name, some value, fields⟩ :: earlier }
    | _ => reader
  | .field =>
    match reader.blocks, reader.entries with
    | .type :: _, entry :: earlier =>
      { reader with entries := { entry with fields := entry.fields + 1 } :: earlier }
    | _, _ => reader
  | _ => reader

/-- Opens the block that a line begins. -/
def Reader.enter (reader : Reader) (line : Line) : Reader :=
  if line.opens then { reader with blocks := line.mark.block :: reader.blocks } else reader

/-- Reads one line, unless it closes a block where none is open. -/
def Reader.next (reader : Reader) (line : Line) : Option Reader :=
  match line.closes, reader.blocks with
  | true, [] => none
  | true, _ :: outer => some (({ reader with blocks := outer }.note line.mark).enter line)
  | false, _ => some ((reader.note line.mark).enter line)

/-- Reads lines one after another. -/
def Reader.run (reader : Reader) : List Line → Option Reader
  | [] => some reader
  | line :: rest => (reader.next line).bind (run · rest)

/-- The types of a text in the order they are declared, if its blocks match. -/
def read (text : String) : Option (List TypeEntry) :=
  match Reader.run ⟨[], []⟩ ((lines text.toList).map fun row => line (row.takeWhile (· ≠ '\n'))) with
  | some ⟨[], entries⟩ => some entries.reverse
  | _ => none

/-! ## Lines -/

section Lines
variable {frame : Frame} {front back middle text rest : List Char}

theorem behind?_eq_some_iff : behind? front text = some rest ↔ text = front ++ rest := by
  unfold behind?
  constructor
  · intro found
    split at found
    · rename_i isFront
      cases found
      exact (List.prefix_iff_eq_append.mp (List.isPrefixOf_iff_prefix.mp isFront)).symm
    · cases found
  · rintro rfl
    rw [if_pos (List.isPrefixOf_iff_prefix.mpr (List.prefix_append front rest)), List.drop_left]

theorem name?_eq_some_iff {name : String} :
    frame.name? text = some name ↔ text = frame.front ++ (name.toList ++ frame.back) := by
  unfold Frame.name?
  rw [Option.bind_eq_some_iff]
  constructor
  · rintro ⟨rest, behind, found⟩
    rw [behind?_eq_some_iff.mp behind]
    split at found
    · rename_i isBack
      cases found
      rw [String.toList_ofList]
      exact congrArg (frame.front ++ ·)
        (List.suffix_iff_eq_append.mp (List.isSuffixOf_iff_suffix.mp isBack)).symm
    · cases found
  · rintro rfl
    refine ⟨name.toList ++ frame.back, behind?_eq_some_iff.mpr rfl, ?_⟩
    rw [if_pos (List.isSuffixOf_iff_suffix.mpr (List.suffix_append _ _))]
    simp

/-- What a number is read from stands in its frame. -/
theorem eq_of_number? {number : Nat} (found : frame.number? text = some number) :
    ∃ digits, text = frame.front ++ (digits ++ frame.back) := by
  obtain ⟨rest, behind, found⟩ := Option.bind_eq_some_iff.mp found
  split at found
  · rename_i shaped
    refine ⟨rest.takeWhile Char.isDigit, ?_⟩
    rw [behind?_eq_some_iff.mp behind, ← shaped.2, List.takeWhile_append_dropWhile]
  · cases found

/-- A number that was written is read again, if no digit follows it. -/
theorem number?_digits (number : Nat) (ends : frame.back.takeWhile Char.isDigit = []) :
    frame.number? (frame.front ++ (Nat.toDigits 10 number ++ frame.back)) = some number := by
  have taken := takeWhile_toDigits_append number ends
  have left : (Nat.toDigits 10 number ++ frame.back).dropWhile Char.isDigit = frame.back := by
    have whole := @List.takeWhile_append_dropWhile _ Char.isDigit (Nat.toDigits 10 number ++ frame.back)
    rw [taken] at whole
    exact List.append_cancel_left whole
  unfold Frame.number?
  rw [behind?_eq_some_iff.mpr rfl, Option.bind_some, taken, left,
    if_pos ⟨Nat.toDigits_ne_nil, rfl⟩, Nat.ofDigitChars_ten_toDigits]

/-- The frames of all that a line can say. -/
def frames : List Frame := [moduleFrame, typeFrame, lengthFrame, fieldFrame]

/-- A line that fits no frame says nothing. -/
theorem mark_eq_nothing
    (misfit : ∀ frame ∈ frames, ∀ middle, text ≠ frame.front ++ (middle ++ frame.back)) :
    mark text = .nothing := by
  have noName : ∀ frame ∈ frames, frame.name? text = none := by
    intro frame known
    refine Option.eq_none_iff_forall_ne_some.mpr fun name found => ?_
    exact misfit frame known name.toList (name?_eq_some_iff.mp found)
  have noNumber : ∀ frame ∈ frames, frame.number? text = none := by
    intro frame known
    refine Option.eq_none_iff_forall_ne_some.mpr fun value found => ?_
    obtain ⟨digits, same⟩ := eq_of_number? found
    exact misfit frame known digits same
  rw [mark, noName moduleFrame (by simp [frames]), noName typeFrame (by simp [frames]),
    noNumber lengthFrame (by simp [frames]), noNumber fieldFrame (by simp [frames])]

/-- Neither text goes on as the other does. -/
def Frame.Differs (frame : Frame) (front back : List Char) : Prop :=
  (¬ frame.front <+: front ∧ ¬ front <+: frame.front) ∨
    (¬ frame.back <:+ back ∧ ¬ back <:+ frame.back)

instance (frame : Frame) (front back : List Char) : Decidable (frame.Differs front back) :=
  inferInstanceAs (Decidable (_ ∨ _))

theorem ne_of_differs (differs : frame.Differs front back) (inner : List Char) :
    front ++ (middle ++ back) ≠ frame.front ++ (inner ++ frame.back) := by
  intro same
  rcases differs with ⟨longer, shorter⟩ | ⟨longer, shorter⟩
  · have ours : front <+: front ++ (middle ++ back) := List.prefix_append _ _
    have theirs : frame.front <+: front ++ (middle ++ back) := same ▸ List.prefix_append _ _
    rcases List.prefix_or_prefix_of_prefix ours theirs with below | below
    · exact shorter below
    · exact longer below
  · have ours : back <:+ front ++ (middle ++ back) :=
      (List.suffix_append middle back).trans (List.suffix_append front _)
    have theirs : frame.back <:+ front ++ (middle ++ back) := by
      rw [same]
      exact (List.suffix_append inner frame.back).trans (List.suffix_append frame.front _)
    rcases List.suffix_or_suffix_of_suffix ours theirs with below | below
    · exact shorter below
    · exact longer below

theorem getLast?_frame (filled : back ≠ []) :
    (front ++ (middle ++ back)).getLast? = back.getLast? := by
  rw [← List.append_assoc, List.getLast?_append, List.getLast?_eq_some_getLast filled]
  rfl

/-- A line that differs from every frame opens a block or not, and does nothing else. -/
theorem line_of_differs {row : List Char} (trimmed : trimStart row = front ++ (middle ++ back))
    (clean : '\x7d' ∉ row) (differs : ∀ frame ∈ frames, frame.Differs front back)
    (filled : back ≠ []) : line row = ⟨false, back.getLast? = some '\x7b', .nothing⟩ := by
  have noBrace : (trimStart row).head? ≠ some '\x7d' := by
    intro brace
    exact clean ((List.dropWhile_sublist _).subset (List.mem_of_mem_head? brace))
  have last : (trimStart row).getLast? = back.getLast? := trimmed ▸ getLast?_frame filled
  have silent : mark (trimStart row) = .nothing := by
    rw [trimmed]
    exact mark_eq_nothing fun frame known inner => ne_of_differs (differs frame known) inner
  rw [line, last, silent, decide_eq_false noBrace]

/-! Each frame is told from those looked for before it by how it begins. -/

theorem mark_module (name : String) :
    mark (moduleFrame.front ++ (name.toList ++ moduleFrame.back)) = .module name := by
  rw [mark, name?_eq_some_iff.mpr rfl]

theorem mark_type (name : String) :
    mark (typeFrame.front ++ (name.toList ++ typeFrame.back)) = .type name := by
  have noModule : moduleFrame.name? (typeFrame.front ++ (name.toList ++ typeFrame.back)) = none := rfl
  rw [mark, noModule, name?_eq_some_iff.mpr rfl]

theorem mark_length (value : Nat) :
    mark (lengthFrame.front ++ (Nat.toDigits 10 value ++ lengthFrame.back)) = .length value := by
  have noModule : moduleFrame.name?
      (lengthFrame.front ++ (Nat.toDigits 10 value ++ lengthFrame.back)) = none := rfl
  have noType : typeFrame.name?
      (lengthFrame.front ++ (Nat.toDigits 10 value ++ lengthFrame.back)) = none := rfl
  rw [mark, noModule, noType, number?_digits value rfl]

theorem mark_field (number : Nat) :
    mark (fieldFrame.front ++ (Nat.toDigits 10 number ++ fieldFrame.back)) = .field := by
  have noModule : moduleFrame.name?
      (fieldFrame.front ++ (Nat.toDigits 10 number ++ fieldFrame.back)) = none := rfl
  have noType : typeFrame.name?
      (fieldFrame.front ++ (Nat.toDigits 10 number ++ fieldFrame.back)) = none := rfl
  have noLength : lengthFrame.number?
      (fieldFrame.front ++ (Nat.toDigits 10 number ++ fieldFrame.back)) = none := rfl
  rw [mark, noModule, noType, noLength, number?_digits number rfl]

/-- A line in a frame closes nothing, and says what it says. -/
theorem line_of_frame {row : List Char} (known : frame ∈ frames)
    (trimmed : trimStart row = frame.front ++ (middle ++ frame.back)) :
    line row = ⟨false, frame.back.getLast? = some '\x7b',
      mark (frame.front ++ (middle ++ frame.back))⟩ := by
  have noBrace : ∀ frame ∈ frames, frame.front.head? ≠ none ∧ frame.front.head? ≠ some '\x7d' ∧
      frame.back ≠ [] := by decide
  obtain ⟨begun, ordinary, filled⟩ := noBrace frame known
  have head : (frame.front ++ (middle ++ frame.back)).head? ≠ some '\x7d' := by
    rw [List.head?_append]
    cases first : frame.front.head? with
    | none => exact absurd first begun
    | some c =>
      rw [first] at ordinary
      exact ordinary
  rw [line, trimmed, getLast?_frame filled, decide_eq_false head]

theorem trimStart_append (filled : trimStart front ≠ []) (rest : List Char) :
    trimStart (front ++ rest) = trimStart front ++ rest := by
  rw [trimStart, List.dropWhile_append, if_neg]
  · rfl
  · exact fun empty => filled (List.isEmpty_iff.mp empty)

theorem trimStart_append_of_trimStart (start : List Char) (trimmed : trimStart back = back) :
    trimStart (start ++ back) = trimStart start ++ back := by
  rw [trimStart, List.dropWhile_append]
  split
  · rename_i empty
    rw [trimStart, List.isEmpty_iff.mp empty]
    exact trimmed
  · rfl

end Lines

/-! ## Rows -/

/-- Text without line feeds and closing braces. -/
def IsClean (text : String) : Prop := '\n' ∉ text.toList ∧ '\x7d' ∉ text.toList

theorem IsClean.literal {chars : List Char} (clean : '\n' ∉ chars ∧ '\x7d' ∉ chars := by decide) :
    IsClean (String.ofList chars) := by
  rw [IsClean, String.toList_ofList]
  exact clean

theorem IsClean.append {text more : String} (clean : IsClean text) (cleanMore : IsClean more) :
    IsClean (text ++ more) := by
  rw [IsClean, String.toList_append, List.mem_append, List.mem_append, not_or, not_or]
  exact ⟨⟨clean.1, cleanMore.1⟩, clean.2, cleanMore.2⟩

theorem isClean_toString (number : Nat) : IsClean (toString number) := by
  have digits : ∀ c ∈ (toString number).toList, c.isDigit = true := by
    intro c mem
    rw [Nat.toString_eq_repr, Nat.toList_repr] at mem
    exact Nat.isDigit_of_mem_toDigits (by decide) (by decide) mem
  exact ⟨fun mem => absurd (digits _ mem) (by decide), fun mem => absurd (digits _ mem) (by decide)⟩

/-- A row of text is one line, and this is how it is read. -/
def ReadsAs (row : String) (line : Line) : Prop :=
  IsRow row.toList ∧ Outline.line row.toList = line

theorem ReadsAs.literal {chars : List Char} {line : Line}
    (reads : '\n' ∉ chars ∧ Outline.line chars = line := by decide) :
    ReadsAs (String.ofList chars) line := by
  rw [ReadsAs, String.toList_ofList]
  exact reads

section Pieces
variable {front back : List Char} {start middle : String}

private theorem toList_pieces :
    (String.ofList front ++ middle ++ String.ofList back).toList =
      front ++ (middle.toList ++ back) := by
  rw [String.toList_append, String.toList_append, String.toList_ofList, String.toList_ofList,
    List.append_assoc]

/-- A row in a frame, at any indentation. -/
theorem readsAs_in_frame {frame : Frame} (known : frame ∈ frames) (clean : IsClean middle)
    (begins : '\n' ∉ front ∧ trimStart front = frame.front := by decide)
    (ends : '\n' ∉ back ∧ back = frame.back := by decide) :
    ReadsAs (String.ofList front ++ middle ++ String.ofList back)
      ⟨false, frame.back.getLast? = some '\x7b',
        mark (frame.front ++ (middle.toList ++ frame.back))⟩ := by
  have filled : ∀ frame ∈ frames, frame.front ≠ [] := by decide
  obtain ⟨cleanFront, begins⟩ := begins
  obtain ⟨cleanBack, rfl⟩ := ends
  have trimmed : trimStart (String.ofList front ++ middle ++ String.ofList frame.back).toList =
      frame.front ++ (middle.toList ++ frame.back) := by
    rw [toList_pieces, trimStart_append (begins ▸ filled frame known), begins]
  refine ⟨?_, line_of_frame known trimmed⟩
  rw [toList_pieces]
  exact isRow_append cleanFront (isRow_append clean.1 cleanBack)

/-- A row that is told from all frames by how it begins or ends. -/
theorem readsAs_framed (clean : IsClean middle)
    (begins : IsClean (String.ofList front) := by exact .literal)
    (ends : IsClean (String.ofList back) := by exact .literal)
    (apart : trimStart front ≠ [] ∧ back ≠ [] ∧
      ∀ frame ∈ frames, frame.Differs (trimStart front) back := by decide) :
    ReadsAs (String.ofList front ++ middle ++ String.ofList back)
      ⟨false, back.getLast? = some '\x7b', .nothing⟩ := by
  have cleanAll := (begins.append clean).append ends
  have trimmed : trimStart (String.ofList front ++ middle ++ String.ofList back).toList =
      trimStart front ++ (middle.toList ++ back) := by
    rw [toList_pieces, trimStart_append apart.1]
  exact ⟨cleanAll.1, line_of_differs trimmed cleanAll.2 apart.2.2 apart.2.1⟩

/-- A row that is told from all frames by how it ends. -/
theorem readsAs_ending (clean : IsClean start)
    (ends : IsClean (String.ofList back) := by exact .literal)
    (apart : trimStart back = back ∧ back ≠ [] ∧
      ∀ frame ∈ frames, frame.Differs [] back := by decide) :
    ReadsAs (start ++ String.ofList back) ⟨false, back.getLast? = some '\x7b', .nothing⟩ := by
  have cleanAll := clean.append ends
  have split : trimStart (start ++ String.ofList back).toList =
      [] ++ (trimStart start.toList ++ back) := by
    rw [String.toList_append, String.toList_ofList, trimStart_append_of_trimStart _ apart.1]
    rfl
  exact ⟨cleanAll.1, line_of_differs split cleanAll.2 apart.2.2 apart.2.1⟩

end Pieces

/-- Indentation is not read. -/
theorem line_indentRow (depth : Nat) (row : List Char) : line (indentRow depth row) = line row := by
  rw [line, trimStart_indentRow]
  rfl

/-- Rows are read as lines, one after another. -/
def Reads (rows : List String) (lines : List Line) : Prop :=
  (∀ row ∈ rows, IsRow row.toList) ∧ rows.map (fun row => line row.toList) = lines

theorem reads_nil : Reads [] [] := ⟨fun _ mem => (nomatch mem), rfl⟩

theorem Reads.cons {row : String} {rows : List String} {line : Line} {lines : List Line}
    (first : ReadsAs row line) (rest : Reads rows lines) : Reads (row :: rows) (line :: lines) :=
  ⟨List.forall_mem_cons.mpr ⟨first.1, rest.1⟩, List.cons_eq_cons.mpr ⟨first.2, rest.2⟩⟩

theorem reads_cons_iff {row : String} {rows : List String} {line : Line} {lines : List Line} :
    Reads (row :: rows) (line :: lines) ↔ ReadsAs row line ∧ Reads rows lines := by
  constructor
  · rintro ⟨clean, same⟩
    rw [List.forall_mem_cons] at clean
    rw [List.map_cons, List.cons_eq_cons] at same
    exact ⟨⟨clean.1, same.1⟩, clean.2, same.2⟩
  · exact fun ⟨first, rest⟩ => .cons first rest

theorem Reads.append {rows more : List String} {lines moreLines : List Line}
    (reads : Reads rows lines) (readsMore : Reads more moreLines) :
    Reads (rows ++ more) (lines ++ moreLines) :=
  ⟨List.forall_mem_append.mpr ⟨reads.1, readsMore.1⟩, by rw [List.map_append, reads.2, readsMore.2]⟩

/-- The same line over and over. -/
theorem reads_range {row : Nat → String} {line : Line} (reads : ∀ i, ReadsAs (row i) line)
    (count : Nat) : Reads ((List.range count).map row) (List.replicate count line) := by
  induction count with
  | zero => exact reads_nil
  | succ count ih =>
    rw [List.range_succ, List.map_append, List.replicate_succ']
    exact ih.append (.cons (reads count) reads_nil)

/-! ## Running the reader -/

theorem run_append (reader : Reader) (lines more : List Line) :
    reader.run (lines ++ more) = (reader.run lines).bind (·.run more) := by
  induction lines generalizing reader with
  | nil => rfl
  | cons first rest ih =>
    rw [List.cons_append, Reader.run, Reader.run]
    cases reader.next first with
    | none => rfl
    | some next => exact ih next

theorem run_trans {reader middle final : Reader} {lines more : List Line}
    (first : reader.run lines = some middle) (second : middle.run more = some final) :
    reader.run (lines ++ more) = some final := by
  rw [run_append, first]
  exact second

/-- Lines that say nothing, and neither open a block nor close one. -/
def Line.plain : Line := ⟨false, false, .nothing⟩

/-- A line that opens a block. -/
def Line.opening : Line := ⟨false, true, .nothing⟩

/-- A line that closes one. -/
def Line.closing : Line := ⟨true, false, .nothing⟩

theorem run_plain (reader : Reader) (count : Nat) :
    reader.run (List.replicate count .plain) = some reader := by
  induction count with
  | zero => rfl
  | succ count ih => exact ih

/-- Reading a text, which ends every line, takes the reader from one state to another. -/
def ReadsTo (text : List Char) (before after : Reader) : Prop :=
  ∃ rows, text = unlines rows ∧ (∀ row ∈ rows, IsRow row) ∧
    before.run (rows.map line) = some after

theorem ReadsTo.nil (reader : Reader) : ReadsTo [] reader reader :=
  ⟨[], rfl, fun _ mem => (nomatch mem), rfl⟩

theorem ReadsTo.append {text more : List Char} {before middle after : Reader}
    (first : ReadsTo text before middle) (second : ReadsTo more middle after) :
    ReadsTo (text ++ more) before after := by
  obtain ⟨rows, rfl, clean, read⟩ := first
  obtain ⟨moreRows, rfl, cleanMore, readMore⟩ := second
  refine ⟨rows ++ moreRows, (unlines_append rows moreRows).symm, ?_, ?_⟩
  · exact List.forall_mem_append.mpr ⟨clean, cleanMore⟩
  · rw [List.map_append]
    exact run_trans read readMore

/-- It takes the reader there at any depth. -/
theorem ReadsTo.indent {text : List Char} {before after : Reader} (reads : ReadsTo text before after)
    (depth : Nat) : ReadsTo (Text.indent depth text) before after := by
  obtain ⟨rows, rfl, clean, read⟩ := reads
  refine ⟨rows.map (indentRow depth), indent_unlines depth clean, fun row mem => ?_, ?_⟩
  · obtain ⟨inner, known, rfl⟩ := List.mem_map.mp mem
    exact isRow_indentRow depth (clean inner known)
  · have same : line ∘ indentRow depth = line := funext (line_indentRow depth)
    rw [List.map_map, same]
    exact read

/-- One row with its line feed. -/
theorem ReadsAs.readsTo {row : String} {line : Line} (reads : ReadsAs row line)
    {before after : Reader} (next : before.next line = some after) :
    ReadsTo (row.toList ++ ['\n']) before after := by
  refine ⟨[row.toList], (unlines_singleton _).symm, ?_, ?_⟩
  · exact List.forall_mem_singleton.mpr reads.1
  · rw [List.map_singleton, reads.2, Reader.run, next]
    rfl

theorem readsTo_blank (reader : Reader) : ReadsTo ['\n'] reader reader := by
  have row : ReadsAs "" .plain := .literal
  exact @ReadsAs.readsTo "" .plain row reader reader rfl

/-- A text whose reading ends without a block open is read as its types. -/
theorem read_eq_of_readsTo {text : String} {entries : List TypeEntry}
    (reads : ReadsTo text.toList ⟨[], []⟩ ⟨[], entries.reverse⟩) : read text = some entries := by
  obtain ⟨rows, same, clean, run⟩ := reads
  have cut : (lines text.toList).map (fun row => line (row.takeWhile (· ≠ '\n'))) = rows.map line := by
    rw [same, lines_unlines clean, List.map_map]
    refine List.map_congr_left fun row mem => ?_
    exact congrArg line (takeWhile_row (clean row mem))
  rw [read, cut, run]
  exact congrArg some (List.reverse_reverse entries)

/-- A line that declares a field. -/
def Line.field : Line := ⟨false, false, .field⟩

/-- In its own block, each field of a type is counted. -/
theorem run_fields (blocks : List Block) (entry : TypeEntry) (earlier : List TypeEntry) (count : Nat) :
    Reader.run ⟨.type :: blocks, entry :: earlier⟩ (List.replicate count .field) =
      some ⟨.type :: blocks, { entry with fields := entry.fields + count } :: earlier⟩ := by
  induction count generalizing entry with
  | zero => rfl
  | succ count ih =>
    rw [List.replicate_succ, Reader.run]
    have next : Reader.next ⟨.type :: blocks, entry :: earlier⟩ .field =
        some ⟨.type :: blocks, { entry with fields := entry.fields + 1 } :: earlier⟩ := rfl
    rw [next, Option.bind_some, ih]
    simp only [Nat.add_assoc, Nat.add_comm 1 count]

end SlotArray.Outline
