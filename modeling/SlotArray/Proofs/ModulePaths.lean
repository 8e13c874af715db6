import SlotArray.Extraction
import SlotArray.Proofs.Blanks
import SlotArray.Proofs.Sections
import SlotArray.Proofs.SnakeCases
import SlotArray.Proofs.Tokens.Rereading

/-! The spellings of a module path. A path is read piece by piece, between points and double colons, so
two paths with a point between are read as one behind the other; and what is read spells itself, so a
module has one path whatever was written for it. -/
namespace SlotArray

open Text

/-! ## Piece by piece -/

namespace ModulePath

theorem rawSegments_of_clean {piece : List Char} (colons : ':' ∉ piece) (points : '.' ∉ piece) :
    rawSegments piece = [piece] := by
  have clean : ∀ c ∈ piece, (c == '.') = false := by
    intro c mem
    rw [beq_eq_false_iff_ne]
    rintro rfl
    exact points mem
  rw [rawSegments, splitColons_of_clean colons, List.flatMap_singleton, splitWhere_of_clean clean]

theorem rawSegments_meet {left right : List Char}
    (apart : left.getLast? ≠ some ':' ∨ right.head? ≠ some ':') :
    Meet (rawSegments left) (rawSegments right) (rawSegments (left ++ right)) :=
  (splitColons_meet apart).flatMap (splitWhere_meet _)

/-- A point always separates: it is no part of a double colon. -/
theorem rawSegments_append_point (front back : List Char) :
    rawSegments (front ++ '.' :: back) = rawSegments front ++ rawSegments back := by
  have other : '.' ≠ ':' := by decide
  have behind : rawSegments ('.' :: back) = [] :: rawSegments back := by
    obtain ⟨first, rest, split⟩ := List.exists_cons_of_ne_nil (splitColons_ne_nil back)
    rw [rawSegments, rawSegments, splitColons_cons fun same => absurd same other, split, consPiece, List.flatMap_cons,
      List.flatMap_cons, splitWhere, if_pos (by decide), List.cons_append]
  obtain ⟨inFront, last, first, rest, cutFront, cutBack, cutBoth⟩ :=
    @rawSegments_meet front ('.' :: back) (.inr fun head => other (Option.some.inj head))
  rw [behind, List.cons.injEq] at cutBack
  obtain ⟨rfl, rfl⟩ := cutBack
  rw [cutBoth, cutFront, List.append_nil, List.append_cons]

private theorem not_mem_of_isBlank {blank : List Char} (isBlank : IsBlank blank) :
    ':' ∉ blank ∧ '.' ∉ blank :=
  ⟨fun mem => absurd (isBlank _ mem) (by decide), fun mem => absurd (isBlank _ mem) (by decide)⟩

theorem rawSegments_of_isBlank {blank : List Char} (isBlank : IsBlank blank) :
    rawSegments blank = [blank] :=
  rawSegments_of_clean (not_mem_of_isBlank isBlank).1 (not_mem_of_isBlank isBlank).2

/-- White space at the ends of a path is white space at the ends of a piece. -/
private theorem map_trim_rawSegments_blank_append {blank : List Char} (isBlank : IsBlank blank)
    (text : List Char) :
    (rawSegments (blank ++ text)).map trim = (rawSegments text).map trim := by
  have apart : blank.getLast? ≠ some ':' := fun last =>
    (not_mem_of_isBlank isBlank).1 (List.mem_of_getLast? last)
  obtain ⟨front, last, first, rest, cutBlank, cutText, cutBoth⟩ := @rawSegments_meet blank text (.inl apart)
  rw [rawSegments_of_isBlank isBlank] at cutBlank
  obtain ⟨rfl, rfl⟩ : front = [] ∧ blank = last := by
    cases front with
    | nil => exact ⟨rfl, (List.cons.inj cutBlank).1⟩
    | cons piece front => simp at cutBlank
  rw [cutBoth, cutText, List.nil_append, List.map_cons, List.map_cons, trim_blank_append isBlank]

private theorem map_trim_rawSegments_append_blank {blank : List Char} (isBlank : IsBlank blank)
    (text : List Char) :
    (rawSegments (text ++ blank)).map trim = (rawSegments text).map trim := by
  have apart : blank.head? ≠ some ':' := fun head =>
    (not_mem_of_isBlank isBlank).1 (List.mem_of_head? head)
  obtain ⟨front, last, first, rest, cutText, cutBlank, cutBoth⟩ := @rawSegments_meet text blank (.inr apart)
  rw [rawSegments_of_isBlank isBlank, List.cons.injEq] at cutBlank
  obtain ⟨rfl, rfl⟩ := cutBlank
  simp [cutBoth, cutText, trim_append_blank isBlank]

theorem map_trim_rawSegments_trim (text : List Char) :
    (rawSegments (trim text)).map trim = (rawSegments text).map trim := by
  obtain ⟨before, after, blankBefore, blankAfter, split⟩ := exists_blanks_around text
  have whole : (rawSegments text).map trim = (rawSegments (before ++ (trim text ++ after))).map trim :=
    congrArg (fun text => (rawSegments text).map trim) split
  rw [whole, map_trim_rawSegments_blank_append blankBefore, map_trim_rawSegments_append_blank blankAfter]

/-- A piece is read without the white space around it. -/
theorem segment?_trim (raw : List Char) : segment? (trim raw) = segment? raw := by
  simp only [segment?, trim_trim]

theorem segment?_of_isBlank {blank : List Char} (isBlank : IsBlank blank) : segment? blank = none := by
  simp only [segment?, trim_eq_nil_iff.mpr isBlank, List.isEmpty_nil, if_true]

theorem mapM_segment?_map_trim (raws : List (List Char)) :
    (raws.map trim).mapM segment? = raws.mapM segment? := by
  rw [List.mapM_map]
  congr 1
  funext raw
  exact segment?_trim raw

/-- Nothing but white space is the root. -/
theorem parse?_of_isBlank {text : String} (isBlank : IsBlank text.toList) : parse? text = some root := by
  simp only [parse?, trim_eq_nil_iff.mpr isBlank, List.isEmpty_nil, if_true]

/-- Any other text is read piece by piece, whatever white space is around it. -/
theorem parse?_of_filled {text : String} (filled : ¬ IsBlank text.toList) :
    parse? text = ((rawSegments text.toList).mapM segment?).map ModulePath.mk := by
  have left : (trim text.toList).isEmpty = false := by
    rw [List.isEmpty_eq_false_iff]
    exact fun empty => filled (trim_eq_nil_iff.mp empty)
  simp only [parse?, left, Bool.false_eq_true, if_false]
  rw [← mapM_segment?_map_trim, map_trim_rawSegments_trim, mapM_segment?_map_trim]

/-! ## Two paths with a point between -/

/-- The path that two texts with a point between stand for: neither is blank, and both are paths. -/
inductive IsJoined (front back : String) : ModulePath → Prop
  | joined {before after : ModulePath} (filledFront : ∃ c ∈ front.toList, isBlank c = false)
      (filledBack : ∃ c ∈ back.toList, isBlank c = false) (readFront : readHome front = .ok before)
      (readBack : readHome back = .ok after) :
      IsJoined front back ⟨before.segments ++ after.segments⟩

end ModulePath

theorem readHome_eq_ok_iff {text : String} {path : ModulePath} :
    readHome text = .ok path ↔ ModulePath.parse? text = some path := by
  rw [readHome]
  cases ModulePath.parse? text with
  | none => simp
  | some other => simp

namespace ModulePath

private theorem filled_iff {text : List Char} :
    (∃ c ∈ text, isBlank c = false) ↔ ¬ IsBlank text := by
  simp [IsBlank]

theorem mapM_segment?_append_iff {raws more : List (List Char)} {segments : List String} :
    (raws ++ more).mapM segment? = some segments ↔ ∃ before after,
      raws.mapM segment? = some before ∧ more.mapM segment? = some after ∧ segments = before ++ after := by
  rw [List.mapM_append]
  constructor
  · intro read
    obtain ⟨before, readBefore, read⟩ := Option.bind_eq_some_iff.mp read
    obtain ⟨after, readAfter, read⟩ := Option.bind_eq_some_iff.mp read
    exact ⟨before, after, readBefore, readAfter, (Option.some.inj read).symm⟩
  · rintro ⟨before, after, readBefore, readAfter, rfl⟩
    rw [readBefore, readAfter]
    rfl

/-- A blank half is an empty piece, which is no segment. -/
private theorem filled_of_mapM {text : List Char} {segments : List String}
    (read : (rawSegments text).mapM segment? = some segments) : ¬ IsBlank text := by
  intro isBlank
  rw [rawSegments_of_isBlank isBlank, List.mapM_cons, segment?_of_isBlank isBlank] at read
  exact nomatch read

theorem parse?_point_iff {front back : String} {path : ModulePath} :
    parse? (front ++ "." ++ back) = some path ↔ IsJoined front back path := by
  have text : (front ++ "." ++ back).toList = front.toList ++ '.' :: back.toList := by
    simp [String.toList_append]
  have filled : ¬ IsBlank (front ++ "." ++ back).toList := by
    intro isBlank
    rw [text] at isBlank
    exact absurd (isBlank '.' (by simp)) (by decide)
  rw [parse?_of_filled filled, text, rawSegments_append_point, Option.map_eq_some_iff]
  constructor
  · rintro ⟨segments, read, rfl⟩
    obtain ⟨before, after, readFront, readBack, rfl⟩ := mapM_segment?_append_iff.mp read
    have filledFront := filled_of_mapM readFront
    have filledBack := filled_of_mapM readBack
    have parsedFront : parse? front = some ⟨before⟩ := by
      rw [parse?_of_filled filledFront, readFront]
      rfl
    have parsedBack : parse? back = some ⟨after⟩ := by
      rw [parse?_of_filled filledBack, readBack]
      rfl
    exact .joined (filled_iff.mpr filledFront) (filled_iff.mpr filledBack)
      (readHome_eq_ok_iff.mpr parsedFront) (readHome_eq_ok_iff.mpr parsedBack)
  · rintro ⟨filledFront, filledBack, readFront, readBack⟩
    have parsedFront := readHome_eq_ok_iff.mp readFront
    have parsedBack := readHome_eq_ok_iff.mp readBack
    rw [parse?_of_filled (filled_iff.mp filledFront)] at parsedFront
    rw [parse?_of_filled (filled_iff.mp filledBack)] at parsedBack
    obtain ⟨before, segmentsFront, rfl⟩ := Option.map_eq_some_iff.mp parsedFront
    obtain ⟨after, segmentsBack, rfl⟩ := Option.map_eq_some_iff.mp parsedBack
    exact ⟨_, mapM_segment?_append_iff.mpr ⟨before, after, segmentsFront, segmentsBack, rfl⟩, rfl⟩

end ModulePath

/-- Two texts with a point between are a path when both are and neither is blank, and then it is the one
path behind the other. Otherwise the whole is refused, without the white space around it. -/
theorem readHome_point (front back : String) :
    (∀ path, readHome (front ++ "." ++ back) = .ok path ↔ ModulePath.IsJoined front back path) ∧
      ∀ fault, readHome (front ++ "." ++ back) = .error fault ↔
        (¬ ∃ path, ModulePath.IsJoined front back path) ∧
          fault = .invalidNamespace (Text.trimmed (front ++ "." ++ back)) := by
  constructor
  · intro path
    exact readHome_eq_ok_iff.trans ModulePath.parse?_point_iff
  · intro fault
    cases parsed : ModulePath.parse? (front ++ "." ++ back) with
    | some path =>
      have joined := ModulePath.parse?_point_iff.mp parsed
      constructor
      · intro failed
        rw [readHome_eq_ok_iff.mpr parsed] at failed
        exact nomatch failed
      · exact fun refused => absurd ⟨path, joined⟩ refused.1
    | none =>
      have apart : ¬ ∃ path, ModulePath.IsJoined front back path := by
        rintro ⟨path, joined⟩
        exact nomatch parsed.symm.trans (ModulePath.parse?_point_iff.mpr joined)
      rw [readHome, parsed]
      constructor
      · intro failed
        exact ⟨apart, (Except.error.inj failed).symm⟩
      · rintro ⟨_, rfl⟩
        rfl

/-! ## Canonical spelling -/

/-- The name of a module: an identifier, and no keyword, of words in small ASCII letters and digits with
single underscores between. A letter is first. -/
structure IsModuleName (segment : String) : Prop where
  identifier : Source.isIdentifier segment = true
  keyword : segment ∉ Source.keywords
  letter : ∃ first rest, segment.toList = first :: rest ∧ first.isLower = true
  words : ∃ words : List (List Char), segment.toList = ['_'].intercalate words ∧
    ∀ word ∈ words, word ≠ [] ∧ ∀ c ∈ word, (c.isLower || c.isDigit) = true

namespace ModulePath

theorem segment?_eq_some_iff {raw : List Char} {segment : String} :
    segment? raw = some segment ↔ ¬ IsBlank raw ∧ segment = String.ofList (snakeCase (trim raw)) ∧
      Source.isIdentifier segment = true := by
  by_cases isBlank : IsBlank raw
  · simp [segment?_of_isBlank isBlank, isBlank]
  · have filled : (trim raw).isEmpty = false := by
      rw [List.isEmpty_eq_false_iff]
      exact fun empty => isBlank (trim_eq_nil_iff.mp empty)
    simp only [segment?, filled, Bool.false_eq_true, if_false, Option.ite_none_right_eq_some,
      Option.some.injEq, isBlank, not_false_eq_true, true_and]
    constructor
    · rintro ⟨identifier, rfl⟩
      exact ⟨rfl, identifier⟩
    · rintro ⟨rfl, identifier⟩
      exact ⟨identifier, rfl⟩

/-- The first word of a name starts it, and an identifier does not start with a digit. -/
private theorem exists_letter {segment : String} (isSegment : IsSegment segment)
    {parts : List (List Char)} (spelled : segment.toList = ['_'].intercalate parts)
    (small : ∀ word ∈ parts, IsSmallWord word) :
    ∃ first rest, segment.toList = first :: rest ∧ first.isLower = true := by
  obtain ⟨first, rest, same, start, _⟩ := (Source.isPlainWord_iff _).mp isSegment.isPlainWord
  refine ⟨first, rest, same, ?_⟩
  have smallFirst : isSmall first = true := by
    rw [same] at spelled
    cases parts with
    | nil => exact nomatch spelled
    | cons word others =>
      obtain ⟨c, letters, rfl⟩ := List.exists_cons_of_ne_nil (small word List.mem_cons_self).1
      have inWord := (small _ List.mem_cons_self).2 c List.mem_cons_self
      cases others with
      | nil =>
        rw [List.intercalate_singleton] at spelled
        rwa [(List.cons.inj spelled).1]
      | cons =>
        rw [List.intercalate_cons_cons] at spelled
        rwa [(List.cons.inj spelled).1]
  rw [isSmall, Source.isDigit_of_isIdentStart start, Bool.or_false] at smallFirst
  exact smallFirst

theorem isModuleName_of_segment? {raw : List Char} {segment : String}
    (found : segment? raw = some segment) : IsModuleName segment := by
  have isSegment := isSegment_of_segment? found
  obtain ⟨_, spelled, identifier⟩ := segment?_eq_some_iff.mp found
  have ofWords : segment.toList =
      ['_'].intercalate ((words (trim raw)).map fun word => word.map Char.toLower) := by
    rw [spelled, String.toList_ofList, snakeCase]
  have small : ∀ word ∈ (words (trim raw)).map fun word => word.map Char.toLower,
      IsSmallWord word := by
    intro word mem
    obtain ⟨written, inText, rfl⟩ := List.mem_map.mp mem
    exact isSmallWord_of_mem_words inText
  refine ⟨identifier, ?_, exists_letter isSegment ofWords small, _, ofWords, small⟩
  obtain ⟨word, found, named⟩ := (Source.isIdentifier_iff segment).mp identifier
  obtain rfl := Option.some.inj (isSegment.word?_eq.symm.trans found)
  simp only [Source.isName, Bool.and_eq_true, Bool.not_eq_true', List.contains_eq_mem,
    decide_eq_false_iff_not] at named
  exact named.2

end ModulePath

section ModuleNames
variable {segment : String} (isName : IsModuleName segment)
include isName

theorem IsModuleName.isSegmentChar : ∀ c ∈ segment.toList, isSegmentChar c = true := by
  obtain ⟨parts, spelled, small⟩ := isName.words
  rw [spelled, ← snakeCase_intercalate small]
  exact fun c mem => isSegmentChar_of_mem_snakeCase mem

/-- No separator and no white space is in a name. -/
theorem IsModuleName.clean : (∀ c ∈ segment.toList, isBlank c = false) ∧
    ':' ∉ segment.toList ∧ '.' ∉ segment.toList := by
  have chars := isName.isSegmentChar
  refine ⟨?_, fun mem => absurd (chars _ mem) (by decide), fun mem => absurd (chars _ mem) (by decide)⟩
  intro c mem
  have plain := (plain_of_isSegmentChar (chars c mem)).1
  rw [Source.isSeparator, Bool.or_assoc, Bool.or_eq_false_iff] at plain
  exact plain.1

/-- A name is read as itself. -/
theorem IsModuleName.segment?_eq : ModulePath.segment? segment.toList = some segment := by
  obtain ⟨first, rest, same, _⟩ := isName.letter
  obtain ⟨parts, spelled, small⟩ := isName.words
  have trims := trim_of_clean isName.clean.1
  refine ModulePath.segment?_eq_some_iff.mpr ⟨?_, ?_, isName.identifier⟩
  · rw [← trim_eq_nil_iff, trims, same]
    exact List.cons_ne_nil _ _
  · rw [trims, spelled, snakeCase_intercalate small, ← spelled, String.ofList_toList]

end ModuleNames

namespace ModulePath

variable {segments : List String} {path : ModulePath}

private theorem mapM_segment?_map_toList (named : ∀ segment ∈ segments, IsModuleName segment) :
    (segments.map String.toList).mapM segment? = some segments := by
  induction segments with
  | nil => rfl
  | cons first rest ih =>
    rw [List.map_cons, List.mapM_cons, (named first List.mem_cons_self).segment?_eq,
      ih fun segment mem => named segment (List.mem_cons_of_mem _ mem)]
    rfl

/-- Double colons and points alike are cut between names, and nowhere else. -/
private theorem rawSegments_intercalate (named : ∀ segment ∈ segments, IsModuleName segment)
    (filled : segments ≠ []) {separator : String} (separates : separator = "::" ∨ separator = ".") :
    rawSegments (separator.intercalate segments).toList = segments.map String.toList := by
  induction segments with
  | nil => exact absurd rfl filled
  | cons first rest ih =>
    obtain ⟨_, colons, points⟩ := (named first List.mem_cons_self).clean
    cases rest with
    | nil => rw [String.intercalate_singleton, rawSegments_of_clean colons points, List.map_singleton]
    | cons second others =>
      have onward := ih (fun segment mem => named segment (List.mem_cons_of_mem _ mem))
        (List.cons_ne_nil _ _)
      have head := rawSegments_of_clean colons points
      rw [String.intercalate_cons_cons, String.toList_append, String.toList_append, List.append_assoc,
        List.map_cons, ← onward]
      rcases separates with rfl | rfl
      · have colon : "::".toList = [':', ':'] := by decide
        rw [rawSegments, splitColons_of_clean colons, List.flatMap_singleton] at head
        rw [colon, List.cons_append, List.singleton_append, rawSegments,
          splitColons_append_colons colons, List.flatMap_cons, head]
        rfl
      · have point : ".".toList = ['.'] := by decide
        rw [point, List.singleton_append, rawSegments_append_point, head]
        rfl

/-- Names put together with either separator are read as the path they are. -/
theorem parse?_intercalate (named : ∀ segment ∈ segments, IsModuleName segment) {separator : String}
    (separates : separator = "::" ∨ separator = ".") :
    parse? (separator.intercalate segments) = some ⟨segments⟩ := by
  cases segments with
  | nil => rfl
  | cons first rest =>
    have filled : ¬ IsBlank (separator.intercalate (first :: rest)).toList := by
      obtain ⟨c, others, same, lower⟩ := (named first List.mem_cons_self).letter
      have inFirst : c ∈ first.toList := by
        rw [same]
        exact List.mem_cons_self
      intro isBlank
      have blank : Text.isBlank c = true := by
        apply isBlank
        cases rest with
        | nil => rwa [String.intercalate_singleton]
        | cons =>
          rw [String.intercalate_cons_cons, String.toList_append, String.toList_append]
          exact List.mem_append_left _ (List.mem_append_left _ inFirst)
      exact Bool.false_ne_true (((named first List.mem_cons_self).clean.1 c inFirst).symm.trans blank)
    rw [parse?_of_filled filled, rawSegments_intercalate named (List.cons_ne_nil _ _) separates,
      mapM_segment?_map_toList named]
    rfl

theorem isModuleName_of_parse? {text : String} (parsed : parse? text = some path) :
    ∀ segment ∈ path.segments, IsModuleName segment := by
  by_cases isBlank : IsBlank text.toList
  · rw [parse?_of_isBlank isBlank] at parsed
    cases parsed
    exact fun _ mem => absurd mem List.not_mem_nil
  · rw [parse?_of_filled isBlank] at parsed
    obtain ⟨segments, read, rfl⟩ := Option.map_eq_some_iff.mp parsed
    intro segment mem
    obtain ⟨raw, found⟩ := exists_of_mem_mapM read mem
    exact isModuleName_of_segment? found

theorem parse?_display {text : String} (parsed : parse? text = some path) :
    parse? path.display = some path :=
  parse?_intercalate (isModuleName_of_parse? parsed) (.inl rfl)

theorem display_inj {text otherText : String} {other : ModulePath} (parsed : parse? text = some path)
    (parsedOther : parse? otherText = some other) : path = other ↔ path.display = other.display := by
  constructor
  · rintro rfl
    rfl
  · intro same
    have reread := parse?_display parsed
    rw [same, parse?_display parsedOther] at reread
    exact (Option.some.inj reread).symm

end ModulePath

/-- A path that is read has names for its segments, and it is read again from them, with either
separator between. So two paths are told apart by how they are displayed: requests with one name collide
in equal displays only, and a definition goes to the section of those. -/
theorem paths_are_canonical {text : String} {path : ModulePath}
    (parsed : ModulePath.parse? text = some path) :
    (∀ segment ∈ path.segments, IsModuleName segment) ∧
      ModulePath.parse? path.display = some path ∧
      ModulePath.parse? (".".intercalate path.segments) = some path ∧
      ∀ otherText other, ModulePath.parse? otherText = some other →
        (path = other ↔ path.display = other.display) ∧
        (∀ name size otherSize, (⟨name, path, size⟩ : Request).collides ⟨name, other, otherSize⟩ = true ↔
          path.display = other.display) ∧
        ∀ (document : Document) (definition : String), document.IsOrdered →
          (document.append path definition).definitionsOf other =
            document.definitionsOf other ++ if path.display = other.display then [definition] else [] := by
  have named := ModulePath.isModuleName_of_parse? parsed
  refine ⟨named, ModulePath.parse?_display parsed, ModulePath.parse?_intercalate named (.inr rfl), ?_⟩
  intro otherText other parsedOther
  have same := ModulePath.display_inj parsed parsedOther
  refine ⟨same, ?_, ?_⟩
  · intro name size otherSize
    rw [Request.collides_iff, ← same, Request.key, Request.key, Prod.mk.injEq, and_iff_left rfl]
  · intro document definition ordered
    rw [Document.definitionsOf_append ordered]
    simp only [same]

/-- Two spellings of one module. -/
theorem paths_are_canonical_spelled_twice :
    ∃ path other, ModulePath.parse? " HTTPServer . two-way" = some path ∧
      ModulePath.parse? "http_server::Two Way" = some other ∧ path = other ∧
      ModulePath.parse? path.display = some path ∧
      ((Document.empty.append path "first").append other "second").definitionsOf path =
        ["first", "second"] := by
  have parsed : ModulePath.parse? " HTTPServer . two-way" = some ⟨["http_server", "two_way"]⟩ := by
    decide +kernel
  have parsedOther : ModulePath.parse? "http_server::Two Way" = some ⟨["http_server", "two_way"]⟩ := by
    decide +kernel
  obtain ⟨_, reread, _, tellsApart⟩ := paths_are_canonical parsed
  obtain ⟨same, _, files⟩ := tellsApart _ _ parsedOther
  have ordered := Document.isOrdered_empty.append ⟨["http_server", "two_way"]⟩ "first"
  have filed := files _ "second" ordered
  refine ⟨_, _, parsed, parsedOther, same.mpr rfl, reread, ?_⟩
  rw [filed, Document.definitionsOf_append Document.isOrdered_empty, if_pos rfl, if_pos rfl]
  rfl

end SlotArray
