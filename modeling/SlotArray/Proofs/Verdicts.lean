import Mathlib.Data.List.Infix
import SlotArray.Proofs.Blanks
import SlotArray.Proofs.Feeds

/-! What an occurrence is answered, rule by rule. Only the first tag that asks for a container counts,
and of its arguments only what the first rule that applies looks at: a fault hides every later one,
and a size of 0 hides all that could be wrong with the names. -/
namespace SlotArray

variable {shape : Shape} {declaration : String} {tags : List Tag} {tag : Tag}

/-! ## The tag that counts -/

/-- A double colon stands somewhere in the text. -/
def HasColons (text : List Char) : Prop := [':', ':'] <:+: text

/-- The last segment of a path: the text behind its rightmost double colon, or all of a path without
one. -/
inductive IsLastSegment (path : List Char) : List Char → Prop
  | whole (plain : ¬ HasColons path) : IsLastSegment path path
  | behind {front segment : List Char} (cut : path = front ++ ':' :: ':' :: segment)
      (rightmost : ¬ HasColons (':' :: segment)) : IsLastSegment path segment

/-- A tag asks for a container when its last segment, without the white space around it, says so. -/
def Tag.Asks (tag : Tag) : Prop :=
  ∃ segment, IsLastSegment tag.path.toList segment ∧ Text.trim segment = "struct_array".toList

/-- The first tag that asks for a container, if one does. -/
inductive IsFirstAsking (tags : List Tag) : Option Tag → Prop
  | none (silent : ∀ tag ∈ tags, ¬ tag.Asks) : IsFirstAsking tags none
  | some {before after : List Tag} {tag : Tag} (place : tags = before ++ tag :: after)
      (asks : tag.Asks) (silent : ∀ earlier ∈ before, ¬ earlier.Asks) : IsFirstAsking tags (some tag)

private theorem hasColons_cons_cons_iff {c d : Char} {text : List Char} :
    HasColons (c :: d :: text) ↔ (c = ':' ∧ d = ':') ∨ HasColons (d :: text) := by
  unfold HasColons
  rw [List.infix_cons_iff]
  simp [List.cons_prefix_cons, eq_comm]

/-- The walk from the end stops at the rightmost double colon: none is in what it has passed, and none
begins with the character it is at. -/
private theorem isLastSegment_go {before passed : List Char} (clean : ¬ HasColons passed)
    (cleanAhead : ∀ next ∈ before.head?, ¬ HasColons (next :: passed)) :
    IsLastSegment (before.reverse ++ passed) (Text.afterColons.go before passed) := by
  fun_induction Text.afterColons.go before passed with
  | case1 rest passed =>
    refine @IsLastSegment.behind _ rest.reverse _ ?_ (cleanAhead ':' rfl)
    simp
  | case2 c rest passed notColons ih =>
    have clean := cleanAhead c rfl
    rw [List.reverse_cons, List.append_assoc, List.singleton_append]
    refine ih clean fun next ahead => ?_
    obtain ⟨others, rfl⟩ := List.head?_eq_some_iff.mp ahead
    rw [hasColons_cons_cons_iff]
    rintro (⟨rfl, rfl⟩ | inside)
    · exact notColons others rfl rfl
    · exact clean inside
  | case3 passed => exact .whole clean

theorem isLastSegment_afterColons (path : List Char) : IsLastSegment path (Text.afterColons path) := by
  have short : ∀ c, ¬ HasColons [c] := fun c inside => absurd inside.length_le (by simp)
  have empty : ¬ HasColons [] := fun inside => absurd inside.length_le (by simp)
  have found := @isLastSegment_go path.reverse [] empty fun next _ => short next
  simpa [Text.afterColons] using found

/-- Of two segments behind double colons the shorter one would leave a double colon in the other. -/
private theorem length_le_of_behind {front other segment longer : List Char}
    (same : front ++ ':' :: ':' :: segment = other ++ ':' :: ':' :: longer)
    (rightmost : ¬ HasColons (':' :: longer)) : longer.length ≤ segment.length := by
  by_contra shorter
  have first : ':' :: ':' :: segment <:+ front ++ ':' :: ':' :: segment := List.suffix_append _ _
  have second : ':' :: longer <:+ front ++ ':' :: ':' :: segment :=
    same ▸ ⟨other ++ [':'], by simp⟩
  have within := List.suffix_of_suffix_length_le first second (by simp; omega)
  apply rightmost
  exact List.IsInfix.trans ⟨[], segment, rfl⟩ within.isInfix

theorem IsLastSegment.unique {path segment other : List Char} (last : IsLastSegment path segment)
    (lastToo : IsLastSegment path other) : segment = other := by
  cases last with
  | whole plain =>
    cases lastToo with
    | whole => rfl
    | behind cut => exact absurd ⟨_, _, by rw [cut]; simp; rfl⟩ plain
  | behind cut rightmost =>
    cases lastToo with
    | whole plain => exact absurd ⟨_, _, by rw [cut]; simp; rfl⟩ plain
    | behind cutToo rightmostToo =>
      have same := cut.symm.trans cutToo
      have length := Nat.le_antisymm (length_le_of_behind same.symm rightmost)
        (length_le_of_behind same rightmostToo)
      have ends := List.append_inj_right' same (by simp [length])
      simpa using ends

theorem Tag.asks_iff : tag.Asks ↔ tag.name = tagName := by
  have spelled : tag.name = tagName ↔
      Text.trim (Text.afterColons tag.path.toList) = "struct_array".toList := by
    rw [Tag.name, tagName, ← String.toList_inj, String.toList_ofList]
  rw [spelled]
  constructor
  · rintro ⟨segment, last, trims⟩
    rwa [(isLastSegment_afterColons _).unique last]
  · intro trims
    exact ⟨_, isLastSegment_afterColons _, trims⟩

/-- Every list of tags has one first tag that asks, or none. -/
theorem isFirstAsking_iff {first : Option Tag} :
    IsFirstAsking tags first ↔ tags.find? (fun tag => tag.name == tagName) = first := by
  constructor
  · intro isFirst
    cases isFirst with
    | none silent =>
      apply List.find?_eq_none.mpr
      intro tag mem named
      exact silent tag mem (Tag.asks_iff.mpr (by simpa using named))
    | some place asks silent =>
      apply List.find?_eq_some_iff_append.mpr
      refine ⟨by simpa using Tag.asks_iff.mp asks, _, _, place, ?_⟩
      intro earlier mem
      simpa [Tag.asks_iff] using silent earlier mem
  · rintro rfl
    cases found : tags.find? (fun tag => tag.name == tagName) with
    | none =>
      refine .none fun tag mem asks => ?_
      exact List.find?_eq_none.mp found tag mem (by simpa using Tag.asks_iff.mp asks)
    | some tag =>
      obtain ⟨named, before, after, place, silent⟩ := List.find?_eq_some_iff_append.mp found
      refine .some place (Tag.asks_iff.mpr (by simpa using named)) fun earlier mem asks => ?_
      simpa [Tag.asks_iff.mp asks] using silent earlier mem

/-! ## The rules -/

/-- The rules for the arguments of a tag, in their order: each asks for what the ones before it did not
decide. -/
inductive Verdict (declaration : String) :
    Shape → List Argument → Except SchemaFault (Option Request) → Prop
  | miscounted {shape arguments} (count : arguments.length ≠ shape.arity) :
      Verdict declaration shape arguments (.error (.argumentCount shape.arity arguments.length))
  | sizeMistyped {shape arguments} {size : Argument} (count : arguments.length = shape.arity)
      (given : arguments[shape.sizeIndex]? = some size) (other : size.kind ≠ .integer) :
      Verdict declaration shape arguments (.error (.typeMismatch shape.sizeIndex .integer size.kind))
  | sizeOutside {shape arguments} {value : Int} (count : arguments.length = shape.arity)
      (given : arguments[shape.sizeIndex]? = some (.integer value))
      (outside : value < 0 ∨ 255 < value) :
      Verdict declaration shape arguments (.error (.sizeOutOfRange value))
  | disabled {shape arguments} (count : arguments.length = shape.arity)
      (zero : arguments[shape.sizeIndex]? = some (.integer 0)) :
      Verdict declaration shape arguments (.ok none)
  | nameMistyped {name home : Argument} {size : SlotCount} (other : name.kind ≠ .string) :
      Verdict declaration .named [name, home, .integer size.val]
        (.error (.typeMismatch 0 .string name.kind))
  | homeMistyped {name : String} {home : Argument} {size : SlotCount} (other : home.kind ≠ .string) :
      Verdict declaration .named [.string name, home, .integer size.val]
        (.error (.typeMismatch 1 .string home.kind))
  | nameRefused {name home : String} {size : SlotCount}
      (unfit : Source.isIdentifier (Text.trimmed name) = false ∨ Text.trimmed name = "T") :
      Verdict declaration .named [.string name, .string home, .integer size.val]
        (.error (.invalidName (Text.trimmed name)))
  | homeRefused {name home : String} {size : SlotCount}
      (identifier : Source.isIdentifier (Text.trimmed name) = true) (apart : Text.trimmed name ≠ "T")
      (unfit : ModulePath.parse? home = none) :
      Verdict declaration .named [.string name, .string home, .integer size.val]
        (.error (.invalidNamespace (Text.trimmed home)))
  | named {name home : String} {path : ModulePath} {size : SlotCount}
      (identifier : Source.isIdentifier (Text.trimmed name) = true) (apart : Text.trimmed name ≠ "T")
      (parsed : ModulePath.parse? home = some path) :
      Verdict declaration .named [.string name, .string home, .integer size.val]
        (.ok (some ⟨Text.trimmed name, path, size⟩))
  | declarationRefused {size : SlotCount}
      (unfit : Source.isIdentifier (Text.trimmed declaration) = false) :
      Verdict declaration .inline [.integer size.val] (.error (.invalidName (Text.trimmed declaration)))
  | inline {size : SlotCount} (identifier : Source.isIdentifier (Text.trimmed declaration) = true) :
      Verdict declaration .inline [.integer size.val]
        (.ok (some ⟨Text.trimmed declaration, .root, size⟩))

/-- What becomes of an occurrence with a given first asking tag. A fault is reported with the
declaration and with the path of that tag. -/
inductive Answer (shape : Shape) (declaration : String) :
    Option Tag → Except SchemaError (Option Request) → Prop
  | untagged : Answer shape declaration none (.ok none)
  | asked {tag : Tag} {answer : Option Request}
      (rule : Verdict declaration shape tag.arguments (.ok answer)) :
      Answer shape declaration (some tag) (.ok answer)
  | faulty {tag : Tag} {fault : SchemaFault}
      (rule : Verdict declaration shape tag.arguments (.error fault)) :
      Answer shape declaration (some tag) (.error ⟨declaration, tag.path, fault⟩)

/-- The ways a size can be given. -/
inductive SizeCase : Argument → Prop
  | mistyped {size : Argument} (other : size.kind ≠ .integer) : SizeCase size
  | outside {value : Int} (outside : value < 0 ∨ 255 < value) : SizeCase (.integer value)
  | zero : SizeCase (.integer 0)
  | count (size : SlotCount) : SizeCase (.integer size.val)

private theorem sizeCase (argument : Argument) : SizeCase argument := by
  cases argument with
  | integer value =>
    by_cases outside : value < 0 ∨ 255 < value
    · exact .outside outside
    by_cases zero : value = 0
    · exact zero ▸ .zero
    obtain ⟨number, rfl⟩ := Int.eq_ofNat_of_zero_le (a := value) (by omega)
    exact .count ⟨number, by omega, by omega⟩
  | string => exact .mistyped nofun
  | boolean => exact .mistyped nofun
  | float => exact .mistyped nofun
  | other => exact .mistyped nofun

private theorem readSize_of_kind {argument : Argument} {index : Nat} (other : argument.kind ≠ .integer) :
    argument.readSize index = .error (.typeMismatch index .integer argument.kind) := by
  cases argument with
  | integer => exact absurd rfl other
  | _ => rfl

private theorem readSize_of_outside {value : Int} {index : Nat} (outside : value < 0 ∨ 255 < value) :
    (Argument.integer value).readSize index = .error (.sizeOutOfRange value) := by
  rw [Argument.readSize, if_neg]
  omega

private theorem readString_of_kind {argument : Argument} {index : Nat} (other : argument.kind ≠ .string) :
    argument.readString index = .error (.typeMismatch index .string argument.kind) := by
  cases argument with
  | string => exact absurd rfl other
  | _ => rfl

/-- With the number of arguments that its shape has, a tag is read from its size. -/
private theorem request?_sized (declaration path : String) {arguments : List Argument}
    (count : arguments.length = shape.arity) :
    ∃ (size : Argument) (made : SlotCount → Except SchemaFault Request),
      arguments[shape.sizeIndex]? = some size ∧
      (Tag.mk path arguments).request? shape declaration = (do
        let number ← size.readSize shape.sizeIndex
        match SlotCount.ofNat? number with
        | some number => some <$> made number
        | none => return none) := by
  cases shape with
  | named =>
    obtain ⟨name, home, size, rfl⟩ := List.length_eq_three.mp count
    exact ⟨size, namedRequest name home, rfl, rfl⟩
  | inline =>
    obtain ⟨size, rfl⟩ := List.length_eq_one_iff.mp count
    exact ⟨size, inlineRequest declaration, rfl, rfl⟩

private theorem request?_miscounted {arguments : List Argument} {path : String}
    (count : arguments.length ≠ shape.arity) :
    (Tag.mk path arguments).request? shape declaration =
      .error (.argumentCount shape.arity arguments.length) := by
  unfold Tag.request?
  split
  · rename_i name home size same
    simp only at same
    subst same
    exact absurd rfl count
  · rename_i size same
    simp only at same
    subst same
    exact absurd rfl count
  · rfl

private theorem request?_faulty_size {arguments : List Argument} {path : String} {size : Argument}
    {fault : SchemaFault} (count : arguments.length = shape.arity)
    (given : arguments[shape.sizeIndex]? = some size)
    (fails : size.readSize shape.sizeIndex = .error fault) :
    (Tag.mk path arguments).request? shape declaration = .error fault := by
  obtain ⟨found, made, same, read⟩ := request?_sized declaration path count
  obtain rfl := Option.some.inj (same.symm.trans given)
  rw [read, fails]
  rfl

private theorem request?_named_sized (name home : Argument) (size : SlotCount) (path : String) :
    (Tag.mk path [name, home, .integer size.val]).request? .named declaration =
      some <$> namedRequest name home size := by
  simp only [Tag.request?, readSize_val, bind, Except.bind, SlotCount.ofNat?_val]

private theorem request?_inline_sized (size : SlotCount) (path : String) :
    (Tag.mk path [.integer size.val]).request? .inline declaration =
      some <$> inlineRequest declaration size := by
  simp only [Tag.request?, readSize_val, bind, Except.bind, SlotCount.ofNat?_val]

private theorem readName_of_identifier {text : String}
    (identifier : Source.isIdentifier (Text.trimmed text) = true) :
    readName text = .ok (Text.trimmed text) :=
  readName_eq_ok_iff.mpr ⟨rfl, identifier⟩

private theorem readName_of_unfit {text : String}
    (unfit : Source.isIdentifier (Text.trimmed text) = false) :
    readName text = .error (.invalidName (Text.trimmed text)) := by
  simp only [readName, unfit, Bool.false_eq_true, if_false]

/-- Two strings are read name first, and then the module. -/
private theorem namedRequest_of_identifier {name : String} (home : String) (size : SlotCount)
    (identifier : Source.isIdentifier (Text.trimmed name) = true) (apart : Text.trimmed name ≠ "T") :
    namedRequest (.string name) (.string home) size =
      (readHome home).map fun path => ⟨Text.trimmed name, path, size⟩ := by
  have other : Text.trimmed name ≠ defaultElement := apart
  simp only [namedRequest, Argument.readString, readName_of_identifier identifier, if_neg other, bind,
    Except.bind]
  cases readHome home <;> rfl

/-- The rules are right: each says what the tag is read as. -/
theorem request?_of_verdict {arguments : List Argument} {path : String}
    {outcome : Except SchemaFault (Option Request)} (rule : Verdict declaration shape arguments outcome) :
    (Tag.mk path arguments).request? shape declaration = outcome := by
  cases rule with
  | miscounted count => exact request?_miscounted count
  | sizeMistyped count given other => exact request?_faulty_size count given (readSize_of_kind other)
  | sizeOutside count given outside =>
    exact request?_faulty_size count given (readSize_of_outside outside)
  | disabled count zero => exact (tag_request?_eq_none_iff _ _).mpr ⟨count, zero⟩
  | nameMistyped other =>
    rw [request?_named_sized, namedRequest, readString_of_kind other]
    rfl
  | homeMistyped other =>
    rw [request?_named_sized, namedRequest, readString_of_kind other]
    rfl
  | @nameRefused name home size unfit =>
    rw [request?_named_sized]
    by_cases identifier : Source.isIdentifier (Text.trimmed name) = true
    · have element : Text.trimmed name = defaultElement :=
        unfit.resolve_left fun refused => nomatch identifier.symm.trans refused
      simp only [namedRequest, Argument.readString, readName_of_identifier identifier, if_pos element,
        bind, Except.bind]
      rfl
    · simp only [namedRequest, Argument.readString,
        readName_of_unfit (Bool.eq_false_iff.mpr identifier), bind, Except.bind]
      rfl
  | homeRefused identifier apart unfit =>
    rw [request?_named_sized, namedRequest_of_identifier _ _ identifier apart]
    simp only [readHome, unfit]
    rfl
  | named identifier apart parsed =>
    rw [request?_named_sized, namedRequest_of_identifier _ _ identifier apart]
    simp only [readHome, parsed]
    rfl
  | declarationRefused unfit =>
    rw [request?_inline_sized, inlineRequest, readName_of_unfit unfit]
    rfl
  | inline identifier =>
    rw [request?_inline_sized, inlineRequest, readName_of_identifier identifier]
    rfl

private theorem exists_verdict_named (declaration : String) (name home : Argument) (size : SlotCount) :
    ∃ outcome, Verdict declaration .named [name, home, .integer size.val] outcome := by
  by_cases nameKind : name.kind = .string
  swap
  · exact ⟨_, .nameMistyped nameKind⟩
  cases name with
  | string name =>
    by_cases homeKind : home.kind = .string
    swap
    · exact ⟨_, .homeMistyped homeKind⟩
    cases home with
    | string home =>
      by_cases unfit : Source.isIdentifier (Text.trimmed name) = false ∨ Text.trimmed name = "T"
      · exact ⟨_, .nameRefused unfit⟩
      obtain ⟨identifier, apart⟩ := not_or.mp unfit
      rw [Bool.not_eq_false] at identifier
      cases parsed : ModulePath.parse? home with
      | none => exact ⟨_, .homeRefused identifier apart parsed⟩
      | some path => exact ⟨_, .named identifier apart parsed⟩
    | _ => exact nomatch homeKind
  | _ => exact nomatch nameKind

/-- Some rule applies to every list of arguments. -/
theorem exists_verdict (declaration : String) (shape : Shape) (arguments : List Argument) :
    ∃ outcome, Verdict declaration shape arguments outcome := by
  by_cases count : arguments.length = shape.arity
  swap
  · exact ⟨_, .miscounted count⟩
  have within : shape.sizeIndex < arguments.length := by
    rw [count]
    cases shape <;> decide
  have given := List.getElem?_eq_getElem within
  generalize arguments[shape.sizeIndex] = size at given
  cases sizeCase size with
  | mistyped other => exact ⟨_, .sizeMistyped count given other⟩
  | outside outside => exact ⟨_, .sizeOutside count given outside⟩
  | zero => exact ⟨_, .disabled count given⟩
  | count size =>
    cases shape with
    | named =>
      obtain ⟨name, home, last, rfl⟩ := List.length_eq_three.mp count
      obtain rfl : last = .integer size.val := Option.some.inj given
      exact exists_verdict_named declaration name home size
    | inline =>
      obtain ⟨last, rfl⟩ := List.length_eq_one_iff.mp count
      obtain rfl : last = .integer size.val := Option.some.inj given
      by_cases identifier : Source.isIdentifier (Text.trimmed declaration) = true
      · exact ⟨_, .inline identifier⟩
      · exact ⟨_, .declarationRefused (Bool.eq_false_iff.mpr identifier)⟩

theorem tag_request?_iff {outcome : Except SchemaFault (Option Request)} :
    tag.request? shape declaration = outcome ↔ Verdict declaration shape tag.arguments outcome := by
  constructor
  · rintro rfl
    obtain ⟨outcome, rule⟩ := exists_verdict declaration shape tag.arguments
    rwa [request?_of_verdict rule]
  · exact request?_of_verdict

/-- What an occurrence is answered follows from its first asking tag. -/
theorem request?_iff {occurrence : Occurrence} {first : Option Tag}
    (isFirst : IsFirstAsking occurrence.tags first) {outcome : Except SchemaError (Option Request)} :
    occurrence.request? shape = outcome ↔ Answer shape occurrence.declaration first outcome := by
  have found : occurrence.tag? = first := isFirstAsking_iff.mp isFirst
  rw [Occurrence.request?, found]
  cases first with
  | none =>
    constructor
    · rintro rfl
      exact .untagged
    · rintro ⟨⟩
      rfl
  | some tag =>
    constructor
    · rintro rfl
      dsimp only
      cases read : tag.request? shape occurrence.declaration with
      | ok answer => exact .asked (tag_request?_iff.mp read)
      | error fault => exact .faulty (tag_request?_iff.mp read)
    · intro answer
      cases answer with
      | asked rule => exact mapError_eq_ok_iff.mpr (tag_request?_iff.mpr rule)
      | faulty rule => exact mapError_eq_error_iff.mpr ⟨_, tag_request?_iff.mpr rule, rfl⟩

/-- What every request that is returned can be relied on for. -/
structure IsSound (shape : Shape) (request : Request) : Prop where
  identifier : Source.isIdentifier request.name = true
  trimmed : Text.trimmed request.name = request.name
  size : 1 ≤ request.size.val ∧ request.size.val ≤ 255
  segments : ∀ segment ∈ request.home.segments, IsSegment segment
  apart : shape = .named → request.name ≠ "T"
  atRoot : shape = .inline → request.home = .root

theorem isSound_of_verdict {arguments : List Argument} {request : Request}
    (rule : Verdict declaration shape arguments (.ok (some request))) : IsSound shape request := by
  cases rule with
  | @named _ _ _ size identifier apart parsed =>
    exact ⟨identifier, Text.trimmed_trimmed _, ⟨size.pos, size.le⟩, ModulePath.isSegment_of_parse? parsed,
      fun _ => apart, nofun⟩
  | @inline size identifier =>
    exact ⟨identifier, Text.trimmed_trimmed _, ⟨size.pos, size.le⟩, nofun, nofun, fun _ => rfl⟩

/-- An occurrence is answered by its declaration and its first asking tag alone, and by the first rule
that applies to them; a request it is answered with is sound. -/
theorem request_follows_first_tag (shape : Shape) (occurrence : Occurrence) :
    ∃ first, IsFirstAsking occurrence.tags first ∧
      (∀ outcome, occurrence.request? shape = outcome ↔
        Answer shape occurrence.declaration first outcome) ∧
      (∀ other : Occurrence, other.declaration = occurrence.declaration →
        IsFirstAsking other.tags first → other.request? shape = occurrence.request? shape) ∧
      ∀ request, occurrence.request? shape = .ok (some request) → IsSound shape request := by
  obtain ⟨first, isFirst⟩ : ∃ first, IsFirstAsking occurrence.tags first :=
    ⟨_, isFirstAsking_iff.mpr rfl⟩
  refine ⟨first, isFirst, fun _ => request?_iff isFirst, ?_, ?_⟩
  · intro other same isFirstToo
    apply (request?_iff isFirstToo).mpr
    rw [same]
    exact (request?_iff isFirst).mp rfl
  · intro request asks
    cases (request?_iff isFirst).mp asks with
    | asked rule => exact isSound_of_verdict rule

/-- Of two tags that ask the first is read, white space and crate path around its name and all. The
second could not be, and it does not matter. -/
theorem request_follows_first_tag_of_two :
    let asking : Tag :=
      ⟨"struct_array :: struct_array ", [.string " Pair ", .string "Geometry.Flat", .integer 2]⟩
    let occurrence : Occurrence :=
      ⟨"pair", [⟨"doc", [.string "a pair"]⟩, asking, ⟨"struct_array", [.boolean true]⟩]⟩
    let alone : Occurrence := ⟨"pair", [asking]⟩
    alone.request? .named = occurrence.request? .named ∧
      ∃ request, occurrence.request? .named = .ok (some request) ∧ IsSound .named request := by
  intro asking occurrence alone
  obtain ⟨first, isFirst, _, same, sound⟩ := request_follows_first_tag .named occurrence
  have firstToo : occurrence.tags.find? (fun tag => tag.name == tagName) = first :=
    isFirstAsking_iff.mp isFirst
  refine ⟨same alone rfl ?_, ?_⟩
  · apply isFirstAsking_iff.mpr
    rw [← firstToo]
    decide +kernel
  · have asks : occurrence.request? .named =
        .ok (some ⟨"Pair", ⟨["geometry", "flat"]⟩, ⟨2, by decide, by decide⟩⟩) := by decide +kernel
    exact ⟨_, asks, sound _ asks⟩

end SlotArray
