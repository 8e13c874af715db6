import SlotArray.Proofs.Verdicts
import SlotArray.Proofs.Written.Containers

/-! What becomes of a tagged struct. The declaration is judged first, then the size, and the derives last:
the first of them that is not as it should be is what is reported. Where all are, the struct becomes a
container, since the container's text can always be read as tokens. -/
namespace SlotArray
open Source (TokenTree StructItem Attribute PathPhrase Span Sound IsWordText IsSource readExprs readStruct)

variable {item : StructItem} {arguments : List TokenTree} {name element : String}

/-! ## The element -/

/-- The element of a struct of a source text is a word. -/
theorem isWord_of_elementName (written : item.IsWritten) (isElement : ElementName item.parameters element) :
    IsWordText element.toList := by
  generalize given : item.parameters = parameters at isElement
  cases isElement with
  | default =>
    rw [IsWordText]
    decide
  | @parameter parameter type bare =>
    have known : parameter ∈ item.parameters := given ▸ List.mem_singleton_self parameter
    exact (written.parameters parameter known).isWord type

/-! ## The size -/

/-- Why arguments are no size. -/
inductive SizeFault : List Argument → SchemaFault → Prop
  | count {arguments : List Argument} (other : arguments.length ≠ 1) :
      SizeFault arguments (.argumentCount 1 arguments.length)
  | kind {argument : Argument} (other : argument.kind ≠ .integer) :
      SizeFault [argument] (.typeMismatch 0 .integer argument.kind)
  | range {value : Int} (outside : value < 0 ∨ 255 < value) : SizeFault [.integer value] (.sizeOutOfRange value)

theorem SizeFault.ne_invalidName {given : List Argument} {fault : SchemaFault} (faulty : SizeFault given fault)
    (name : String) : fault ≠ .invalidName name := by
  cases faulty <;> exact nofun

/-- What the arguments of a tag on a struct of a proper name ask for. -/
inductive Asks (name : String) : List Argument → Except SchemaError (Option Request) → Prop
  | faulty {arguments : List Argument} {fault : SchemaFault} (faulty : SizeFault arguments fault) :
      Asks name arguments (.error ⟨name, tagName, fault⟩)
  | nothing : Asks name [.integer 0] (.ok none)
  | container (size : SlotCount) : Asks name [.integer size.val] (.ok (some ⟨name, .root, size⟩))

theorem asks_iff (readsName : readName name = .ok name) {given : List Argument}
    {outcome : Except SchemaError (Option Request)} :
    (Occurrence.tagged name given).request? .inline = outcome ↔ Asks name given outcome := by
  obtain ⟨trimmed, identifier⟩ := readName_eq_ok_iff.mp readsName
  rw [trimmed] at identifier
  have isFirst : IsFirstAsking (Occurrence.tagged name given).tags (some ⟨tagName, given⟩) :=
    isFirstAsking_iff.mpr (tag?_tagged name given)
  have single {argument : Argument} (count : given.length = 1) (first : given[0]? = some argument) :
      given = [argument] := by
    obtain ⟨only, rfl⟩ := List.length_eq_one_iff.mp count
    exact congrArg (fun argument => [argument]) (Option.some.inj first)
  rw [request?_iff isFirst]
  constructor
  · intro answer
    cases answer with
    | faulty rule =>
      refine .faulty ?_
      cases rule with
      | miscounted count => exact .count count
      | sizeMistyped count first other => exact single count first ▸ .kind other
      | sizeOutside count first outside => exact single count first ▸ .range outside
      | declarationRefused unfit => cases identifier.symm.trans unfit
    | asked rule =>
      cases rule with
      | disabled count zero => exact single count zero ▸ .nothing
      | @inline size _ => exact trimmed ▸ .container size
  · intro asks
    cases asks with
    | faulty faulty =>
      refine .faulty ?_
      cases faulty with
      | count other => exact .miscounted other
      | kind other => exact .sizeMistyped rfl rfl other
      | range outside => exact .sizeOutside rfl rfl outside
    | nothing => exact .asked (.disabled rfl rfl)
    | container size =>
      refine .asked ?_
      have rule := @Verdict.inline name size identifier
      rwa [← trimmed] at rule

/-! ## All of it -/

/-- The arguments of a tag are a single integer. -/
def IsSize (arguments : List TokenTree) (value : Int) : Prop :=
  ∃ expr, readExprs arguments = some [expr] ∧ Argument.ofExpr expr = .integer value

/-- What has to be right for a struct to become a container of some slots of an element. -/
structure Becomes (item : StructItem) (arguments : List TokenTree) (element : String) (size : SlotCount) :
    Prop where
  admits : Admits item element
  sized : IsSize arguments size.val
  listed : ∀ tag ∈ item.attributes, isDerive tag = true → (derivePaths? tag).isSome = true

/-- How the expansion of a tagged struct ends. -/
inductive Ending (item : StructItem) (arguments : List TokenTree) :
    Except InvocationError (List TokenTree) → Prop
  | refused {refusal : Refusal} {span : Span} (refuses : Refuses item refusal span) :
      Ending item arguments (.error (.refused refusal span))
  | unread {element : String} (admits : Admits item element) (unread : readExprs arguments = none) :
      Ending item arguments (.error .malformed)
  | noSize {element : String} {exprs : List Source.Expr} {fault : SchemaFault} (admits : Admits item element)
      (read : readExprs arguments = some exprs) (faulty : SizeFault (exprs.map Argument.ofExpr) fault) :
      Ending item arguments
        (.error (.refused (.pass (.schema ⟨item.name, tagName, fault⟩)) (TokenTree.spanOf arguments)))
  | untouched {element : String} (admits : Admits item element) (zero : IsSize arguments 0) :
      Ending item arguments (.ok item.trees)
  | unlisted {element : String} {size : SlotCount} {tag : Attribute} (admits : Admits item element)
      (sized : IsSize arguments size.val) (known : tag ∈ item.attributes) (derives : isDerive tag = true)
      (unlisted : derivePaths? tag = none) : Ending item arguments (.error .malformed)
  | container {element : String} {size : SlotCount} {paths : List PathPhrase} {trees : List TokenTree}
      (becomes : Becomes item arguments element size) (listed : listedPaths? item.attributes = some paths)
      (reads : TokenTree.ofText? (containerOf item size.val element (addedTexts paths)).render = some trees) :
      Ending item arguments (.ok trees)

/-! ### What is expanded ends so -/

/-- Behind a declaration that can become a container the arguments are read. -/
theorem readTaggedStruct_of_admits (admits : Admits item element) {exprs : List Source.Expr}
    (read : readExprs arguments = some exprs) :
    readTaggedStruct item arguments = .ok (element, .tagged item.name (exprs.map Argument.ofExpr)) := by
  have tagged : readTagged item.name arguments = .ok (.tagged item.name (exprs.map Argument.ofExpr)) := by
    rw [readTagged, exprsOf, read]
    rfl
  rw [readTaggedStruct, (elementOf_eq_ok_iff item element).mpr admits, tagged]
  rfl

theorem expandTagged_of_unread (admits : Admits item element) (unread : readExprs arguments = none) :
    expandTagged item arguments = .error .malformed := by
  have malformed : readTagged item.name arguments = .error .malformed := by
    rw [readTagged, exprsOf, unread]
    rfl
  rw [expandTagged, readTaggedStruct, (elementOf_eq_ok_iff item element).mpr admits, malformed]
  rfl

section Written
variable (written : item.IsWritten)
include written

theorem readName_of_written : readName item.name = .ok item.name :=
  readName_of_bare (Source.word?_of_isWordText written.isWord)
    (Source.isIdentifier_of_isWordText written.isWord written.isName)

/-- The text of a container is that of tokens, whose beginning is known. -/
theorem Becomes.exists_trees {size : SlotCount} (becomes : Becomes item arguments element size) :
    ∃ paths extras trees rest, listedPaths? item.attributes = some paths ∧
      extras.Sublist (paths.filter isAdded) ∧ extras.map PathPhrase.text = addedTexts paths ∧
      TokenTree.ofText? (containerOf item size.val element (addedTexts paths)).render = some trees ∧
      TokenTree.flatten trees = openingTokens item size.val element extras ++ rest := by
  obtain ⟨paths, listed⟩ := Option.isSome_iff_exists.mp ((isSome_listedPaths?_iff _).mpr becomes.listed)
  obtain ⟨extras, kept, texts⟩ := exists_addedTexts paths
  have sound : ∀ path ∈ extras, Sound path.trees := by
    intro path mem
    obtain ⟨tag, known, own, reads, inOwn⟩ :=
      exists_of_mem_listedPaths listed (List.mem_of_mem_filter (kept.subset mem))
    obtain ⟨content, list, read⟩ := Option.bind_eq_some_iff.mp reads
    obtain ⟨_, writtenTag⟩ := written.attributes tag known
    obtain ⟨_, stable⟩ := writtenTag.list content list
    exact Source.sound_of_readPaths stable read path inOwn
  have isElement := isWord_of_elementName written becomes.admits.isElement
  obtain ⟨rest, lexes, matching⟩ := exists_lexes_render written isElement size.val sound
  have found := lexes []
  rw [List.append_nil, Source.tokens?_nil, Option.map_some, List.append_nil] at found
  obtain ⟨trees, reads, same⟩ := Source.exists_trees_of_tokens? found matching
  rw [texts] at reads
  exact ⟨paths, extras, trees, rest, listed, kept, texts, reads, same⟩

theorem expandTagged_of_faulty (admits : Admits item element) {exprs : List Source.Expr}
    (read : readExprs arguments = some exprs) {fault : SchemaFault}
    (faulty : SizeFault (exprs.map Argument.ofExpr) fault) :
    expandTagged item arguments =
      .error (.refused (.pass (.schema ⟨item.name, tagName, fault⟩)) (TokenTree.spanOf arguments)) := by
  have asks := (asks_iff (readName_of_written written)).mpr (.faulty faulty)
  simp only [expandTagged, readTaggedStruct_of_admits admits read, bind, Except.bind, asks]
  rfl

theorem expandTagged_of_zero (admits : Admits item element) (zero : IsSize arguments 0) :
    expandTagged item arguments = .ok item.trees := by
  obtain ⟨expr, read, isZero⟩ := zero
  have asks := (asks_iff (readName_of_written written)).mpr .nothing
  have given := readTaggedStruct_of_admits admits read
  rw [List.map_singleton, isZero] at given
  simp only [expandTagged, given, bind, Except.bind, asks]
  rfl

theorem expandTagged_of_size (admits : Admits item element) {size : SlotCount}
    (sized : IsSize arguments size.val) : expandTagged item arguments =
      (listedPaths? item.attributes).elim (.error .malformed) fun paths =>
        reread (containerOf item size.val element (addedTexts paths)).render item.nameSpan := by
  obtain ⟨expr, read, isSize⟩ := sized
  have asks := (asks_iff (readName_of_written written)).mpr (.container size)
  have given := readTaggedStruct_of_admits admits read
  rw [List.map_singleton, isSize] at given
  simp only [expandTagged, given, bind, Except.bind, asks, splitDerives_eq]
  cases listedPaths? item.attributes <;> rfl

theorem expandTagged_of_ending {outcome : Except InvocationError (List TokenTree)}
    (ends : Ending item arguments outcome) : expandTagged item arguments = outcome := by
  cases ends with
  | refused refuses =>
    rw [expandTagged, readTaggedStruct, elementOf_of_refuses refuses]
    rfl
  | unread admits unread => exact expandTagged_of_unread admits unread
  | noSize admits read faulty => exact expandTagged_of_faulty written admits read faulty
  | untouched admits zero => exact expandTagged_of_zero written admits zero
  | unlisted admits sized known derives unlisted =>
    have none : listedPaths? item.attributes = none := by
      rw [← Option.not_isSome_iff_eq_none, isSome_listedPaths?_iff]
      intro all
      have listed := all _ known derives
      rw [unlisted] at listed
      cases listed
    rw [expandTagged_of_size written admits sized, none]
    rfl
  | container becomes listed reads =>
    rw [expandTagged_of_size written becomes.admits becomes.sized, listed, Option.elim_some, reread, reads]
    rfl

/-! ### Every expansion ends -/

theorem exists_ending (arguments : List TokenTree) : ∃ outcome, Ending item arguments outcome := by
  rcases admits_or_refuses item with ⟨element, admits⟩ | ⟨_, _, refuses⟩
  swap
  · exact ⟨_, .refused refuses⟩
  cases read : readExprs arguments with
  | none => exact ⟨_, .unread admits read⟩
  | some exprs =>
    have asks := (asks_iff (readName_of_written written)).mp (@rfl _
      ((Occurrence.tagged item.name (exprs.map Argument.ofExpr)).request? .inline))
    generalize given : exprs.map Argument.ofExpr = values at asks
    generalize (Occurrence.tagged item.name values).request? .inline = answer at asks
    have single {value : Int} (isInteger : exprs.map Argument.ofExpr = [.integer value]) : IsSize arguments value := by
      obtain ⟨expr, rfl, same⟩ := List.map_eq_singleton_iff.mp isInteger
      exact ⟨expr, read, same⟩
    cases asks with
    | faulty faulty => exact ⟨_, .noSize admits read (given ▸ faulty)⟩
    | nothing => exact ⟨_, .untouched admits (single given)⟩
    | container size =>
      by_cases listed : ∀ tag ∈ item.attributes, isDerive tag = true → (derivePaths? tag).isSome = true
      · have becomes : Becomes item arguments element size := ⟨admits, single given, listed⟩
        obtain ⟨paths, _, trees, _, paths?, _, _, reads, _⟩ := becomes.exists_trees written
        exact ⟨_, .container becomes paths? reads⟩
      · simp only [not_forall] at listed
        obtain ⟨tag, known, derives, unlisted⟩ := listed
        exact ⟨_, .unlisted admits (single given) known derives (Option.not_isSome_iff_eq_none.mp unlisted)⟩

/-- Each ends in one way. -/
theorem ending_iff {outcome : Except InvocationError (List TokenTree)} :
    expandTagged item arguments = outcome ↔ Ending item arguments outcome := by
  constructor
  · rintro rfl
    obtain ⟨outcome, ends⟩ := exists_ending written arguments
    rwa [expandTagged_of_ending written ends]
  · exact expandTagged_of_ending written

end Written

/-! ### Tagged structs of source texts -/

/-- Arguments are no two integers. -/
theorem IsSize.unique {value other : Int} (isSize : IsSize arguments value) (isSizeToo : IsSize arguments other) :
    value = other := by
  obtain ⟨expr, read, same⟩ := isSize
  obtain ⟨exprToo, readToo, sameToo⟩ := isSizeToo
  obtain rfl : expr = exprToo := (List.cons.inj (Option.some.inj (read.symm.trans readToo))).1
  exact Argument.integer.inj (same.symm.trans sameToo)

/-- A text is a source of the struct that it declares. -/
theorem exists_source_of_structOf {text : String} (declared : structOf text = .ok item) :
    ∃ trees, IsSource trees ∧ readStruct trees = some item := by
  unfold structOf at declared
  cases lexed : TokenTree.ofText? text with
  | none =>
    rw [lexed] at declared
    cases declared
  | some trees =>
    cases read : readStruct trees with
    | none =>
      rw [lexed, Option.bind_eq_bind, Option.bind_some, read] at declared
      cases declared
    | some found =>
      rw [lexed, Option.bind_eq_bind, Option.bind_some, read] at declared
      cases declared
      exact ⟨trees, Source.isSource_ofText? lexed, read⟩

theorem isWritten_of_structOf {text : String} (declared : structOf text = .ok item) : item.IsWritten := by
  obtain ⟨trees, source, read⟩ := exists_source_of_structOf declared
  exact (Source.isWritten_of_readStruct source read).1

/-- The expansion of a tagged struct ends at the first thing that is not as it should be, whatever its
arguments are, in invisible groups or not: its fields, a where clause, the number of its parameters, what its
parameter is, its name, the size, or its derives, which do not matter with size 0. With another size it
succeeds exactly if all is as it should be, and a container comes of it. Its name is never refused for itself,
nor is the text of the container. Fields are there if something stands between their brackets, and a type
parameter is bare if it is written as its name and nothing else. -/
theorem tagged_struct_ends_at_first_fault {declaration : List TokenTree} (source : IsSource declaration)
    (declared : readStruct declaration = some item) (arguments : List TokenTree) :
    (∀ outcome, expandTagged item arguments = outcome ↔ Ending item arguments outcome) ∧
      ((∃ element size, Becomes item arguments element size) ↔
        (∃ trees, expandTagged item arguments = .ok trees) ∧ ¬ IsSize arguments 0) ∧
      (∀ span, expandTagged item arguments ≠ .error (.refused .unreadable span)) ∧
      (∀ error span, expandTagged item arguments = .error (.refused (.pass (.schema error)) span) →
        ∀ name, error.fault ≠ .invalidName name) ∧
      (item.hasFields = true ↔
        ∃ delimiter content span, item.fieldGroup = [.group delimiter content span] ∧ content ≠ []) ∧
      ∀ parameter ∈ item.parameters, parameter.kind = .type →
        (parameter.isBare = true ↔ ∃ span, parameter.trees = [.leaf (.word parameter.name) span]) := by
  have written := (Source.isWritten_of_readStruct source declared).1
  have endings {outcome : Except InvocationError (List TokenTree)} :
      expandTagged item arguments = outcome ↔ Ending item arguments outcome := ending_iff written
  refine ⟨fun _ => endings, ⟨?_, ?_⟩, ?_, ?_, written.hasFields_iff, fun parameter known =>
    (written.parameters parameter known).isBare_iff⟩
  · rintro ⟨element, size, becomes⟩
    obtain ⟨paths, _, trees, _, listed, _, _, reads, _⟩ := becomes.exists_trees written
    refine ⟨⟨trees, endings.mpr (.container becomes listed reads)⟩, fun zero => ?_⟩
    have same := becomes.sized.unique zero
    have pos := size.pos
    omega
  · rintro ⟨⟨trees, expanded⟩, other⟩
    cases endings.mp expanded with
    | untouched _ zero => exact absurd zero other
    | container becomes => exact ⟨_, _, becomes⟩
  · intro span expanded
    cases endings.mp expanded with
    | refused refuses => cases refuses
  · intro error span expanded name
    cases endings.mp expanded with
    | refused refuses => cases refuses
    | noSize _ _ faulty => exact faulty.ne_invalidName name

theorem admits_of_toOption (seen : (elementOf item).toOption = some element) : Admits item element := by
  refine (elementOf_eq_ok_iff item element).mp ?_
  cases found : elementOf item with
  | error error =>
    rw [found] at seen
    cases seen
  | ok other =>
    rw [found] at seen
    exact congrArg Except.ok (Option.some.inj seen)

/-- A text of a single integer, with what can be seen of it wherever it stands. -/
theorem exists_isSize (around : List TokenTree → List TokenTree) {text : String} {value : Int}
    (seen : (tokensOf text).toOption.bind (fun trees =>
      (readExprs (around trees)).map fun exprs => exprs.map Argument.ofExpr) = some [.integer value]) :
    ∃ trees, tokensOf text = .ok trees ∧ IsSize (around trees) value := by
  cases lexed : tokensOf text with
  | error error =>
    rw [lexed] at seen
    cases seen
  | ok trees =>
    rw [lexed] at seen
    obtain ⟨exprs, read, same⟩ := Option.map_eq_some_iff.mp seen
    obtain ⟨expr, rfl, isInteger⟩ := List.map_eq_singleton_iff.mp same
    exact ⟨trees, rfl, expr, read, isInteger⟩

/-- What is written among derives does not matter with size 0, and does with another, which may be in an
invisible group. -/
theorem tagged_struct_ends_at_derives :
    ∃ item, structOf "#[derive(Clone, 3)] struct Pair<E> \x7b\x7d" = .ok item ∧
      ∃ zero two, tokensOf "0" = .ok zero ∧ tokensOf "2" = .ok two ∧
        expandTagged item zero = .ok item.trees ∧
        expandTagged item [.invisible two .callSite] = .error .malformed ∧
        ∀ element size, ¬ Becomes item [.invisible two .callSite] element size := by
  have read : (structOf "#[derive(Clone, 3)] struct Pair<E> \x7b\x7d").toOption.map (fun item =>
      ((elementOf item).toOption, item.attributes.map fun tag => (isDerive tag, (derivePaths? tag).isSome))) =
        some (some "E", [(true, false)]) := by decide +kernel
  obtain ⟨item, declared, seen⟩ := exists_structOf read
  obtain ⟨element, derives⟩ := Prod.mk.inj seen
  have admits := admits_of_toOption element
  obtain ⟨tag, attributes, single⟩ := List.map_eq_singleton_iff.mp derives
  obtain ⟨derive, unlisted⟩ := Prod.mk.inj single
  obtain ⟨zero, lexedZero, isZero⟩ := @exists_isSize id "0" 0 (by decide +kernel)
  obtain ⟨two, lexedTwo, isTwo⟩ := @exists_isSize (fun trees => [.invisible trees .callSite]) "2" 2 (by decide +kernel)
  obtain ⟨declaration, source, isItem⟩ := exists_source_of_structOf declared
  obtain ⟨endings, succeeds, _⟩ := tagged_struct_ends_at_first_fault source isItem [.invisible two .callSite]
  have ends : Ending item [.invisible two .callSite] (.error .malformed) := by
    refine @Ending.unlisted item _ "E" ⟨2, by decide, by decide⟩ tag admits isTwo ?_ derive ?_
    · rw [attributes]
      exact List.mem_singleton_self tag
    · rwa [← Option.not_isSome_iff_eq_none, Bool.not_eq_true]
  have fails := (endings _).mpr ends
  refine ⟨item, declared, zero, two, lexedZero, lexedTwo, ?_, fails, fun element size becomes => ?_⟩
  · exact ((tagged_struct_ends_at_first_fault source isItem zero).1 _).mpr (.untouched admits isZero)
  · obtain ⟨⟨trees, expanded⟩, _⟩ := succeeds.mp ⟨element, size, becomes⟩
    rw [fails] at expanded
    cases expanded

end SlotArray
