import Mathlib.Data.String.Basic
import SlotArray.ModulePath
import SlotArray.Proofs.Words

/-! The names of modules. Snake case leaves nothing in a name but small letters, digits and
underscores, so a segment is always spelled as the identifier it is. -/
namespace SlotArray

/-- The characters of a module's name. -/
def isSegmentChar (c : Char) : Bool := c.isLower || c.isDigit || c == '_'

private theorem ascii_forall {P : Char → Prop} (all : ∀ code < 128, P (Char.ofNat code)) {c : Char}
    (ascii : c.toNat < 128) : P c :=
  Char.ofNat_toNat c ▸ all c.toNat ascii

private theorem ascii_of_isAlphanum {c : Char} (alphanumeric : c.isAlphanum = true) :
    c.toNat < 128 := by
  delta Char.isAlphanum Char.isAlpha Char.isUpper Char.isLower Char.isDigit at alphanumeric
  simp only [Bool.or_eq_true, Bool.and_eq_true, decide_eq_true_eq, UInt32.le_iff_toNat_le, ge_iff_le,
    Char.toNat_val] at alphanumeric
  have small : 'Z'.toNat < 128 ∧ 'z'.toNat < 128 ∧ '9'.toNat < 128 := by decide
  omega

/-- A character of a word in snake case. -/
def isSmall (c : Char) : Bool := c.isLower || c.isDigit

/-- Small letters are what is left of letters. -/
theorem isSmall_toLower {c : Char} (alphanumeric : c.isAlphanum = true) : isSmall c.toLower = true := by
  have all : ∀ code < 128, (Char.ofNat code).isAlphanum = true →
      isSmall (Char.ofNat code).toLower = true := by decide
  have ascii := ascii_of_isAlphanum alphanumeric
  exact @ascii_forall (fun c => c.isAlphanum = true → isSmall c.toLower = true) all c ascii alphanumeric

theorem isSegmentChar_of_isSmall {c : Char} (small : isSmall c = true) : isSegmentChar c = true :=
  Bool.or_eq_true_iff.mpr (.inl small)

theorem isAlphanum_of_isSmall {c : Char} (small : isSmall c = true) : c.isAlphanum = true := by
  have letters : c.isAlphanum = (c.isUpper || c.isLower || c.isDigit) := rfl
  rw [letters]
  simp only [isSmall, Bool.or_eq_true] at small ⊢
  tauto

/-- Lower case changes nothing of a small character, and it ends no word. -/
theorem toLower_of_isSmall {c : Char} (small : isSmall c = true) :
    c.toLower = c ∧ c.isUpper = false := by
  have all : ∀ code < 128, isSmall (Char.ofNat code) = true →
      (Char.ofNat code).toLower = Char.ofNat code ∧ (Char.ofNat code).isUpper = false := by decide
  have ascii := ascii_of_isAlphanum (isAlphanum_of_isSmall small)
  exact @ascii_forall (fun c => isSmall c = true → c.toLower = c ∧ c.isUpper = false) all c ascii small

/-- A segment's characters neither separate words nor begin a comment. -/
theorem plain_of_isSegmentChar {c : Char} (char : isSegmentChar c = true) :
    Source.isSeparator c = false ∧ c ≠ '/' ∧ c ≠ Source.TokenTree.byteOrderMark := by
  have ascii : c.toNat < 128 := by
    by_cases underscore : c = '_'
    · rw [underscore]
      decide
    · apply ascii_of_isAlphanum
      have letters : c.isAlphanum = (c.isUpper || c.isLower || c.isDigit) := rfl
      rw [letters]
      simp only [isSegmentChar, Bool.or_eq_true, beq_iff_eq] at char ⊢
      tauto
  have all : ∀ code < 128, isSegmentChar (Char.ofNat code) = true →
      Source.isSeparator (Char.ofNat code) = false ∧ Char.ofNat code ≠ '/' ∧
        Char.ofNat code ≠ Source.TokenTree.byteOrderMark := by decide
  exact @ascii_forall (fun c => isSegmentChar c = true → Source.isSeparator c = false ∧ c ≠ '/' ∧
    c ≠ Source.TokenTree.byteOrderMark) all c ascii char

namespace Text

private theorem mem_consPiece {c : Char} {pieces : List (List Char)} {piece : List Char}
    (mem : piece ∈ consPiece c pieces) {inner : Char} (inside : inner ∈ piece) :
    inner = c ∨ ∃ other ∈ pieces, inner ∈ other := by
  cases pieces with
  | nil =>
    rw [List.mem_singleton.mp mem] at inside
    exact .inl (List.mem_singleton.mp inside)
  | cons first others =>
    rcases List.mem_cons.mp mem with rfl | mem
    · rcases List.mem_cons.mp inside with rfl | inside
      · exact .inl rfl
      · exact .inr ⟨first, List.mem_cons_self, inside⟩
    · exact .inr ⟨piece, List.mem_cons_of_mem _ mem, inside⟩

/-- No separator is left in what is cut at separators. -/
theorem not_separator_of_mem_splitWhere {isSeparator : Char → Bool} {text piece : List Char}
    (mem : piece ∈ splitWhere isSeparator text) {c : Char} (inside : c ∈ piece) :
    isSeparator c = false := by
  induction text generalizing piece with
  | nil =>
    rw [List.mem_singleton.mp mem] at inside
    exact nomatch inside
  | cons first rest ih =>
    rw [splitWhere] at mem
    split at mem
    · rcases List.mem_cons.mp mem with rfl | mem
      · exact nomatch inside
      · exact ih mem inside
    · rename_i plain
      have plain : isSeparator first = false := Bool.eq_false_iff.mpr plain
      rcases mem_consPiece mem inside with rfl | ⟨other, mem, inside⟩
      · exact plain
      · exact ih mem inside

/-- Cutting a run into words adds no character. -/
theorem mem_of_mem_runWords {case : LetterCase} {word run piece : List Char}
    (mem : piece ∈ runWords case word run) {c : Char} (inside : c ∈ piece) :
    c ∈ word ∨ c ∈ run := by
  fun_induction runWords case word run with
  | case1 => exact nomatch mem
  | case2 case word filled =>
    rw [List.mem_singleton.mp mem] at inside
    exact .inl inside
  | case3 case word last =>
    rw [List.mem_singleton.mp mem] at inside
    exact List.mem_append.mp inside
  | case4 case word first second rest ends ih =>
    rcases List.mem_cons.mp mem with rfl | mem
    · rcases List.mem_append.mp inside with inside | inside
      · exact .inl inside
      · exact .inr (List.mem_singleton.mp inside ▸ List.mem_cons_self)
    · rcases ih mem with inside | inside
      · exact nomatch inside
      · exact .inr (List.mem_cons_of_mem _ inside)
  | case5 case word first second rest goesOn ends ih =>
    rcases List.mem_cons.mp mem with rfl | mem
    · exact .inl inside
    · rcases ih mem with inside | inside
      · exact .inr (List.mem_singleton.mp inside ▸ List.mem_cons_self)
      · exact .inr (List.mem_cons_of_mem _ inside)
  | case6 case word first second rest goesOn still ih =>
    rcases ih mem with inside | inside
    · rcases List.mem_append.mp inside with inside | inside
      · exact .inl inside
      · exact .inr (List.mem_singleton.mp inside ▸ List.mem_cons_self)
    · exact .inr (List.mem_cons_of_mem _ inside)

private theorem mem_intercalate {separator : List Char} {pieces : List (List Char)} {c : Char}
    (mem : c ∈ List.intercalate separator pieces) : c ∈ separator ∨ ∃ piece ∈ pieces, c ∈ piece := by
  induction pieces with
  | nil => exact nomatch mem
  | cons first rest ih =>
    cases rest with
    | nil => exact .inr ⟨first, List.mem_cons_self, by simpa using mem⟩
    | cons second rest =>
      rw [List.intercalate_cons_cons, List.mem_append, List.mem_append] at mem
      rcases mem with (mem | mem) | mem
      · exact .inr ⟨first, List.mem_cons_self, mem⟩
      · exact .inl mem
      · rcases ih mem with mem | ⟨piece, known, mem⟩
        · exact .inl mem
        · exact .inr ⟨piece, List.mem_cons_of_mem _ known, mem⟩

/-- Snake case is small letters, digits and underscores. -/
theorem isSegmentChar_of_mem_snakeCase {text : List Char} {c : Char} (mem : c ∈ snakeCase text) :
    isSegmentChar c = true := by
  rcases mem_intercalate mem with mem | ⟨_, known, mem⟩
  · rw [List.mem_singleton.mp mem]
    decide
  · obtain ⟨word, ofText, rfl⟩ := List.mem_map.mp known
    obtain ⟨letter, ofWord, rfl⟩ := List.mem_map.mp mem
    obtain ⟨run, cut, ofRun⟩ := List.mem_flatMap.mp ofText
    have alphanumeric : letter.isAlphanum = true := by
      rcases mem_of_mem_runWords ofRun ofWord with inside | inside
      · exact nomatch inside
      · simpa using not_separator_of_mem_splitWhere cut inside
    exact isSegmentChar_of_isSmall (isSmall_toLower alphanumeric)

end Text

/-- A module's name: an identifier in snake case. -/
structure IsSegment (segment : String) : Prop where
  identifier : Source.isIdentifier segment = true
  chars : ∀ c ∈ segment.toList, isSegmentChar c = true

/-- Neither blanks nor comments fit into a segment, so it is its own only word. -/
theorem IsSegment.word?_eq {segment : String} (isSegment : IsSegment segment) :
    Source.word? segment = some segment := by
  obtain ⟨word, found, _⟩ := (Source.isIdentifier_iff segment).mp isSegment.identifier
  have clean : ∀ c ∈ segment.toList,
      Source.isSeparator c = false ∧ c ≠ '/' ∧ c ≠ Source.TokenTree.byteOrderMark :=
    fun c mem => plain_of_isSegmentChar (isSegment.chars c mem)
  rw [found, Source.eq_of_word? found clean]

/-- A segment has no mark, so it is the identifier it stands for. -/
theorem IsSegment.identifier?_eq {segment : String} (isSegment : IsSegment segment) :
    Source.identifier? segment = some segment := by
  have noMark : Source.unmarked segment.toList = segment.toList := by
    rcases Source.eq_unmarked_or_marked segment.toList with same | marked
    · exact same.symm
    · have hash : '#' ∈ segment.toList := by
        rw [marked]
        exact List.mem_cons_of_mem _ List.mem_cons_self
      exact absurd (isSegment.chars '#' hash) (by decide)
  rw [Source.identifier?, isSegment.word?_eq, Option.map_some, noMark, String.ofList_toList]

namespace ModulePath

theorem isSegment_of_segment? {raw : List Char} {segment : String}
    (found : segment? raw = some segment) : IsSegment segment := by
  unfold segment? at found
  simp only at found
  split at found
  · cases found
  · split at found
    · rename_i identifier
      cases found
      refine ⟨identifier, fun c mem => ?_⟩
      rw [String.toList_ofList] at mem
      exact Text.isSegmentChar_of_mem_snakeCase mem
    · cases found

theorem exists_of_mem_mapM {raws : List (List Char)} {segments : List String}
    (found : raws.mapM segment? = some segments) {segment : String} (mem : segment ∈ segments) :
    ∃ raw, segment? raw = some segment := by
  induction raws generalizing segments with
  | nil =>
    rw [List.mapM_nil] at found
    cases found
    exact nomatch mem
  | cons raw rest ih =>
    rw [List.mapM_cons] at found
    obtain ⟨first, foundFirst, found⟩ := Option.bind_eq_some_iff.mp found
    obtain ⟨others, foundOthers, found⟩ := Option.bind_eq_some_iff.mp found
    cases found
    rcases List.mem_cons.mp mem with rfl | mem
    · exact ⟨raw, foundFirst⟩
    · exact ih foundOthers mem

/-- Every part of a module path that is read is a segment. -/
theorem isSegment_of_parse? {text : String} {path : ModulePath} (read : parse? text = some path) :
    ∀ segment ∈ path.segments, IsSegment segment := by
  unfold parse? at read
  simp only at read
  split at read
  · cases read
    exact fun _ mem => nomatch mem
  · obtain ⟨segments, found, rfl⟩ := Option.map_eq_some_iff.mp read
    intro segment mem
    obtain ⟨raw, found⟩ := exists_of_mem_mapM found mem
    exact isSegment_of_segment? found

end ModulePath
end SlotArray
