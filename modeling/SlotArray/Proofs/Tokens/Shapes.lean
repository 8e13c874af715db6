import SlotArray.Proofs.Blanks
import SlotArray.Proofs.PrimitiveNames
import SlotArray.Proofs.Tokens.Nesting

/-! The two ways to ask for a container in a source text: a tag on a struct, and an entry of a list. The
struct gives its name and the tag the size; an entry gives a module as well. Where both give the same
name and the same size, they become the same tokens, the entry's in its module. -/
namespace SlotArray
open Source Text

/-! ## Bare names -/

section Bare
variable {name : String} (bare : word? name = some name)
include bare

theorem isWord_of_bare : IsWordText name.toList := by
  obtain ⟨pieces, cut, single⟩ := pieces_of_word? bare
  have filled : ∀ piece ∈ pieces, piece.text ≠ [] := fun piece mem => text_ne_nil_of_mem cut mem
  obtain ⟨before, after, rfl, _⟩ := split_of_ofPieces_eq_word filled single
  obtain ⟨left, length, found, taken⟩ :=
    piece?_of_mem cut (List.mem_append_right before List.mem_cons_self)
  have same : name.toList = left.take (length + 1) := taken
  rw [same]
  exact Scan.isWord_of_measured (plainWordLength_of_piece? found)

/-- A bare name leaves no comment open, since it has none. -/
theorem isPasteable_of_bare (named : isIdentifier name = true) : isPasteable name = true := by
  cases pasteable : isPasteable name with
  | true => rfl
  | false =>
    rcases Scan.run_of_not_isPasteable named pasteable with ⟨rest, marked⟩ | ⟨word, scan, _, read⟩
    · have breaks : isIdentContinue TokenTree.byteOrderMark = false := by decide +kernel
      have absent := not_mem_of_isWord (spelling_of_word? bare).1 (by decide) breaks
      exact absurd (marked ▸ List.mem_cons_self) absent
    · rw [Scan.run_word (isWord_of_bare bare)] at read
      cases read

/-- There is no white space around a bare name. -/
theorem trimmed_of_bare : trimmed name = name := by
  have isWord := (spelling_of_word? bare).1
  have filled : ∀ c ∈ name.toList, isBlank c = false := by
    intro c mem
    cases blank : isBlank c with
    | false => rfl
    | true =>
      have separates : isSeparator c = true := by simp [isSeparator, blank]
      have noHash : c ≠ '#' := by
        rintro rfl
        exact absurd blank (by decide)
      exact absurd mem (not_mem_of_isWord isWord noHash (isIdentContinue_of_isSeparator separates))
  rw [trimmed, trim_of_clean filled, String.ofList_toList]

theorem readName_of_bare (named : isIdentifier name = true) : readName name = .ok name :=
  readName_eq_ok_iff.mpr ⟨(trimmed_of_bare bare).symm, named⟩

end Bare

/-! ## Structs without anything but a name -/

/-- The trees of a public struct that is nothing but its name. -/
def plainStruct (name : String) (first second third last : Span) : List TokenTree :=
  [.leaf (.word "pub") first, .leaf (.word "struct") second, .leaf (.word name) third,
    .leaf (.mark ';' false) last]

/-- Such a struct is one if its name is no keyword, and has nothing to it but the name. -/
theorem readStruct_plainStruct (name : String) (first second third last : Span) :
    readStruct (plainStruct name first second third last) =
      if isName name then
        some ⟨[], [.leaf (.word "pub") first], name, third, [], none, [], false,
          plainStruct name first second third last⟩
      else none := by
  have read (g : Grammar) : g.structItem (plainStruct name first second third last) =
      (Phrase.name [.leaf (.word name) third, .leaf (.mark ';' false) last]).bind fun found =>
        (g.parameters found.2).bind fun parameters => (g.structBody parameters.2).bind fun body =>
          some (⟨[], [.leaf (.word "pub") first], wordOf found.1, TokenTree.spanOf found.1,
            parameters.1.1, body.1.2.1, body.1.1, Grammar.isFilled body.1.1,
            [.leaf (.word "pub") first, .leaf (.word "struct") second] ++ found.1 ++ parameters.1.2 ++
              body.1.2.2⟩, body.2) := rfl
  have parameters (g : Grammar) : g.parameters [.leaf (.mark ';' false) last] =
      some (([], []), [.leaf (.mark ';' false) last]) := rfl
  have body (g : Grammar) : g.structBody [.leaf (.mark ';' false) last] =
      some (([], none, [.leaf (.mark ';' false) last]), []) := rfl
  have toEnd (g : Grammar) (trees : List TokenTree) : Phrase.toEnd g.structItem trees =
      (g.structItem trees).bind fun found =>
        (Phrase.noneLeft found.2).bind fun left => some (found.1, left.2) := rfl
  rw [readStruct, readWhole, Reading.whole, toEnd, read]
  by_cases named : isName name = true
  · have taken : Phrase.name [.leaf (.word name) third, .leaf (.mark ';' false) last] =
        some ([.leaf (.word name) third], [.leaf (.mark ';' false) last]) := by
      simp [Phrase.name, Phrase.leafThat, Phrase.inSight, TokenTree.seen, named]
    simp only [taken, named, ↓reduceIte, Option.bind_some, parameters, body]
    rfl
  · simp [Phrase.name, Phrase.leafThat, Phrase.inSight, TokenTree.seen, named]

section Declared
variable {name : String} (bare : word? name = some name)
include bare

private theorem tokens?_plainStruct : tokens? ("pub struct " ++ name ++ ";").toList =
    some [.leaf (.word "pub"), .leaf (.word "struct"), .leaf (.word name), .leaf (.mark ';' false)] := by
  have front : Spells "pub struct ".toList [.leaf (.word "pub"), .leaf (.word "struct")] := by decide
  have last : Scan.run .apart [';'] = some (.mark ';', []) := by decide
  have ends : tokens? [';'] = some [.leaf (.mark ';' false)] := by decide +kernel
  have semicolon : ";".toList = [';'] := rfl
  -- the text ends with the semicolon, which the scan has still at hand
  have read : Scan.run .apart ("pub struct " ++ name ++ ";").toList =
      some (.mark ';', [.leaf (.word "pub"), .leaf (.word "struct"), .leaf (.word name)]) := by
    rw [String.toList_append, String.toList_append, List.append_assoc, Scan.run_append_of_run front,
      semicolon, Scan.run_word_break (isWord_of_bare bare) (by decide), last, String.ofList_toList]
    rfl
  obtain ⟨inner, reads, same⟩ := Scan.run_leads .apart read
  cases reads
  have whole := same []
  rwa [List.append_nil, List.append_nil, ends] at whole

private theorem ofText?_plainStruct : ∃ first second third last,
    TokenTree.ofText? ("pub struct " ++ name ++ ";") = some (plainStruct name first second third last) := by
  have found := tokens?_plainStruct bare
  have unmarked : ("pub struct " ++ name ++ ";").toList.head? ≠ some TokenTree.byteOrderMark := by
    have first : ("pub struct " ++ name ++ ";").toList.head? = some 'p' := by
      rw [String.append_assoc, String.toList_append]
      rfl
    rw [first]
    decide
  obtain ⟨pieces, cut, tokens⟩ := Option.map_eq_some_iff.mp found
  rw [← map_fst_placed .start pieces] at tokens
  simp only [TokenTree.ofText?, unmarked, ↓reduceIte, cut]
  generalize Token.placed .start pieces = placed at tokens
  match placed, tokens with
  | [(_, first), (_, second), (_, third), (_, last)], tokens =>
    simp only [List.map_cons, List.map_nil, List.cons.injEq, and_true] at tokens
    obtain ⟨rfl, rfl, rfl, rfl⟩ := tokens
    exact ⟨first, second, third, last, rfl⟩

/-- A text that declares a public struct by a bare name declares one that has this name and nothing else. -/
theorem exists_plainStruct {item : StructItem}
    (declared : structOf ("pub struct " ++ name ++ ";") = .ok item) :
    isIdentifier name = true ∧ ∃ first second third last, item =
      ⟨[], [.leaf (.word "pub") first], name, third, [], none, [], false,
        plainStruct name first second third last⟩ := by
  obtain ⟨first, second, third, last, lexed⟩ := ofText?_plainStruct bare
  have read : structOf ("pub struct " ++ name ++ ";") =
      (readStruct (plainStruct name first second third last)).elim (.error .notAStruct) .ok := by
    rw [structOf, lexed]
    rfl
  rw [read, readStruct_plainStruct] at declared
  split at declared
  · rename_i named
    cases declared
    exact ⟨(isIdentifier_iff name).mpr ⟨name, bare, named⟩, first, second, third, last, rfl⟩
  · cases declared

end Declared

/-! ## Requests -/

section Requests
variable {name declaration homeText : String} {home : ModulePath} {size : SlotCount}

theorem request?_inline (readsName : readName declaration = .ok name) :
    (Occurrence.tagged declaration [.integer size.val]).request? .inline =
      .ok (some ⟨name, .root, size⟩) := by
  rw [Occurrence.request?, tag?_tagged]
  simp only [Tag.request?, readSize_val, SlotCount.ofNat?_val, inlineRequest, readsName,
    Occurrence.tagged, bind, Except.bind]
  rfl

theorem request?_named (readsName : readName name = .ok name) (other : name ≠ defaultElement)
    (parsed : ModulePath.parse? homeText = some home) :
    (Occurrence.tagged declaration [.string name, .string homeText, .integer size.val]).request? .named =
      .ok (some ⟨name, home, size⟩) := by
  rw [Occurrence.request?, tag?_tagged]
  simp only [Tag.request?, readSize_val, SlotCount.ofNat?_val, namedRequest, Argument.readString,
    readsName, readHome, parsed, if_neg other, bind, Except.bind]
  rfl

/-- One declaration that asks for a container is all that is found. -/
theorem discover_singleton {occurrence : Occurrence} {request : Request}
    (asks : occurrence.request? .named = .ok (some request)) :
    discover .named [occurrence] = .ok [request] := by
  rw [discover, discover.go, asks]
  rfl

end Requests

/-! ## What they become -/

/-- A definition is read in one way wherever it stands, and its brackets match. -/
private theorem exists_spells_render {name : String} (bare : word? name = some name)
    (named : isIdentifier name = true) (size : SlotCount) : ∃ tokens, ∀ home : ModulePath,
      Spells ((⟨name, home, size⟩ : Request).render []).toList tokens := by
  have kept := (Request.takes_render ⟨name, .root, size⟩ named).kept (isPasteable_of_bare bare named)
  obtain ⟨tokens, read, _⟩ := kept
  exact ⟨tokens, fun _ => read⟩

section Agree
variable {name homeText : String} {home : ModulePath} {size : SlotCount} {item : StructItem}
  {arguments trees : List TokenTree} {span : Span}

/-- For every bare name but that of the element, every size and every module, the tag on a struct that is
nothing but the name and the entry of a list become the same tokens, the entry's in its modules. Neither
shape fails. -/
theorem tag_and_entry_agree (bare : word? name = some name) (other : name ≠ defaultElement)
    (declared : structOf ("pub struct " ++ name ++ ";") = .ok item)
    (tagged : readTagged item.name arguments = .ok (.tagged item.name [.integer size.val]))
    (parsed : ModulePath.parse? homeText = some home)
    (listed : readEntries trees = .ok [⟨.tagged (entryLabel 0)
      [.string name, .string homeText, .integer size.val], span⟩]) :
    ∃ container document, expandTagged item arguments = .ok container ∧
      expandEntries trees = .ok document ∧
      TokenTree.flatten document = nestedTokens home.segments (TokenTree.flatten container) := by
  obtain ⟨named, first, second, third, last, rfl⟩ := exists_plainStruct bare declared
  have readsName := readName_of_bare bare named
  have pasteable := isPasteable_of_bare bare named
  obtain ⟨tokens, spells⟩ := exists_spells_render bare named size
  -- the tag
  have admitted : elementOf _ = .ok defaultElement :=
    (elementOf_eq_ok_iff ⟨[], [.leaf (.word "pub") first], name, third, [], none, [], false,
      plainStruct name first second third last⟩ _).mpr ⟨rfl, rfl, .default, other⟩
  have visible : TokenTree.write [.leaf (.word "pub") first] = "pub" := rfl
  have asks : (Occurrence.tagged name [.integer size.val]).request? .inline =
      .ok (some ⟨name, .root, size⟩) := request?_inline readsName
  obtain ⟨container, expanded⟩ := exists_expansion admitted visible rfl tagged asks pasteable
  have inside : TokenTree.flatten container = tokens := by
    rw [expandTagged_of_plain admitted visible rfl tagged asks] at expanded
    exact (spells .root).flatten_reread (unmarked_definition _) expanded
  -- the entry
  have found : discover .named [.tagged (entryLabel 0) [.string name, .string homeText,
      .integer size.val]] = .ok [⟨name, home, size⟩] :=
    discover_singleton (request?_named readsName other parsed)
  obtain ⟨document, reads⟩ := expandEntries_of_pasteable listed found fun request mem => by
    rw [List.mem_singleton.mp mem]
    exact pasteable
  have outside : TokenTree.flatten document = nestedTokens home.segments tokens := by
    rw [expandEntries_of_discover listed found (List.cons_ne_nil _ _)] at reads
    exact (spells_ofRequest (ModulePath.isSegment_of_parse? parsed) (spells home)).flatten_reread
      (unmarked_render _) reads
  exact ⟨container, document, expanded, reads, by rw [outside, inside]⟩

end Agree

/-- A pair, as a tagged struct and as an entry for a module in another. -/
theorem tag_and_entry_agree_pair :
    ∃ item arguments trees container document, structOf "pub struct Pair;" = .ok item ∧
      tokensOf "2" = .ok arguments ∧ tokensOf "(\"Pair\", \"geometry.shapes\", 2)" = .ok trees ∧
      expandTagged item arguments = .ok container ∧ expandEntries trees = .ok document ∧
      TokenTree.flatten document = [.leaf (.word "pub"), .leaf (.word "mod"), .leaf (.word "geometry"),
        .opening .brace, .leaf (.word "pub"), .leaf (.word "mod"), .leaf (.word "shapes"),
        .opening .brace] ++ TokenTree.flatten container ++ [.closing .brace, .closing .brace] := by
  have bare : word? "Pair" = some "Pair" := by decide +kernel
  have parsed : ModulePath.parse? "geometry.shapes" = some ⟨["geometry", "shapes"]⟩ := by decide +kernel
  obtain ⟨item, declared, called⟩ :=
    @exists_structOf _ "pub struct Pair;" StructItem.name "Pair" (by decide +kernel)
  have size : (tokensOf "2" >>= readTagged "Pair") = .ok (.tagged "Pair" [.integer 2]) := by decide +kernel
  have entries : (tokensOf "(\"Pair\", \"geometry.shapes\", 2)" >>= readEntries) =
      .ok [⟨.tagged (entryLabel 0) [.string "Pair", .string "geometry.shapes", .integer 2],
        ⟨⟨1, 0⟩, ⟨1, 30⟩⟩⟩] := by decide +kernel
  obtain ⟨arguments, lexed, tagged⟩ := bind_eq_ok_iff.mp size
  obtain ⟨trees, lexedToo, listed⟩ := bind_eq_ok_iff.mp entries
  rw [← called] at tagged
  obtain ⟨container, document, expanded, reads, same⟩ := @tag_and_entry_agree "Pair" "geometry.shapes"
    ⟨["geometry", "shapes"]⟩ ⟨2, by decide, by decide⟩ item arguments trees _ bare (by decide) declared
    tagged parsed listed
  refine ⟨item, arguments, trees, container, document, declared, lexed, lexedToo, expanded, reads, ?_⟩
  rw [same]
  simp [nestedTokens]

end SlotArray
