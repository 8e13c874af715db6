import SlotArray.Proofs.Derives
import SlotArray.Proofs.TaggedStructs
import SlotArray.Proofs.Tokens.Definition
import SlotArray.Proofs.Tokens.Shapes
import SlotArray.Proofs.Written.Items

/-! The container that takes the place of a struct, as tokens. Its text holds what was written of the
struct: attributes, further derives, the visibility and two names. All of it is read as what it was
written of, so the brackets of the text match, and its beginning is known token by token. -/
namespace SlotArray
open Source Text

/-! ## Texts and their tokens -/

namespace Source

/-- A text with matching brackets has trees with its tokens. -/
theorem exists_trees_of_tokens? {text : String} {tokens : List Token} (found : tokens? text.toList = some tokens)
    (matching : matched [] tokens = some []) :
    ∃ trees, TokenTree.ofText? text = some trees ∧ TokenTree.flatten trees = tokens := by
  have unmarked : text.toList.head? ≠ some TokenTree.byteOrderMark := by
    intro marked
    obtain ⟨rest, same⟩ := List.head?_eq_some_iff.mp marked
    rw [same, tokens?_byteOrderMark] at found
    cases found
  have whole : afterMark text.toList = text.toList := if_neg unmarked
  obtain ⟨trees, lexed⟩ := Option.isSome_iff_exists.mp
    ((isSome_ofText?_iff text).mpr ⟨tokens, by rw [whole]; exact found, matching⟩)
  obtain ⟨pieces, cut, same⟩ := pieces_of_ofText? lexed
  rw [whole] at cut
  rw [tokens?, cut] at found
  exact ⟨trees, lexed, same.symm.trans (Option.some.inj found)⟩

/-- A text that is read as certain tokens, whatever follows it. -/
def Lexes (text : List Char) (tokens : List Token) : Prop :=
  ∀ more, tokens? (text ++ more) = (tokens? more).map (tokens ++ ·)

namespace Lexes
variable {text more : List Char} {tokens others : List Token}

theorem nil : Lexes [] [] := fun _ => Option.map_id'.symm

theorem append (lexes : Lexes text tokens) (lexesMore : Lexes more others) :
    Lexes (text ++ more) (tokens ++ others) := by
  intro rest
  rw [List.append_assoc, lexes, lexesMore, Option.map_map]
  simp [Function.comp_def]

theorem flatMap {α : Type} {items : List α} {write : α → List Char} {read : α → List Token}
    (lexes : ∀ item ∈ items, Lexes (write item) (read item)) : Lexes (items.flatMap write) (items.flatMap read) := by
  induction items with
  | nil => exact nil
  | cons item items ih =>
    rw [List.flatMap_cons, List.flatMap_cons]
    exact (lexes item List.mem_cons_self).append (ih fun item mem => lexes item (List.mem_cons_of_mem _ mem))

theorem rows {α : Type} {items : List α} {row : α → String} {read : α → List Token}
    (lexes : ∀ item ∈ items, Lexes ((row item).toList ++ ['\n']) (read item)) :
    Lexes (unlines ((items.map row).map String.toList)) (items.flatMap read) := by
  rw [unlines, List.map_map, List.flatMap_map]
  exact flatMap lexes

end Lexes

theorem Spells.lexes {text : List Char} {tokens : List Token} (spells : Spells text tokens) : Lexes text tokens :=
  Scan.tokens?_of_run spells

/-- Written trees are read again in front of a blank. -/
theorem Sound.lexes {trees : List TokenTree} (sound : Sound trees) (blank : Char) (pause : isPause blank = true)
    (separates : isSeparator blank = true) (noOperator : isOperator blank = false) :
    Lexes ((TokenTree.write trees).toList ++ [blank]) (Token.rejoined false (TokenTree.flatten trees)) := by
  intro more
  have read := Settled.read pause more sound
  rw [TokenTree.write, String.toList_ofList, List.append_assoc, List.singleton_append, read,
    tokens?_separator separates, noOperator]

/-! ## Words -/

/-- Trees of a text with one token that is no bracket are that leaf. -/
private theorem eq_of_flatten_eq_leaf {trees : List TokenTree} {leaf : Leaf} (visible : TokenTree.AreVisible trees)
    (same : TokenTree.flatten trees = [.leaf leaf]) : ∃ span, trees = [.leaf leaf span] := by
  rcases trees with _ | ⟨⟨first, span⟩ | ⟨delimiter, content, span⟩ | ⟨content, span⟩, rest⟩
  · cases same
  · obtain ⟨sameFirst, none⟩ := List.cons.inj same
    cases sameFirst
    rcases rest with _ | ⟨⟨second, spanToo⟩ | ⟨delimiter, content, spanToo⟩ | ⟨content, spanToo⟩, rest⟩
    · exact ⟨span, rfl⟩
    · cases none
    · cases none
    · exact visible.2.1.elim
  · cases (List.cons.inj same).1
  · exact visible.1.elim

/-- A word by itself is the word of its text. -/
theorem word?_of_isWordText {name : String} (isWord : IsWordText name.toList) : word? name = some name := by
  have ends : Breaks [] := rfl
  have found := isWord.read ends
  rw [List.append_nil, tokens?_nil, String.ofList_toList] at found
  obtain ⟨trees, lexed, same⟩ := exists_trees_of_tokens? found rfl
  obtain ⟨span, rfl⟩ := eq_of_flatten_eq_leaf (TokenTree.areVisible_ofText? lexed) same
  rw [word?, lexed]

theorem isIdentifier_of_isWordText {name : String} (isWord : IsWordText name.toList) (named : isName name = true) :
    isIdentifier name = true :=
  (isIdentifier_iff name).mpr ⟨name, word?_of_isWordText isWord, named⟩

end Source

/-! ## Lists -/

/-- Tokens of items with commas between them. What stands in front of a comma is joined to it. -/
def Source.Token.listed : List (List Token) → List Token
  | [] => []
  | [last] => Token.rejoined false last
  | item :: rest => Token.rejoined true item ++ .leaf (.mark ',' false) :: Token.listed rest

/-- Written items with commas between them are read again in front of a parenthesis. -/
theorem tokens?_listed {items : List (List TokenTree)} (sound : ∀ item ∈ items, Sound item) (more : List Char) :
    tokens? ((", ".intercalate (items.map TokenTree.write)).toList ++ ')' :: more) =
      (tokens? (')' :: more)).map (Token.listed (items.map TokenTree.flatten) ++ ·) := by
  induction items with
  | nil => exact Option.map_id'.symm
  | cons item items ih =>
    have soundItem : Settled (TokenTree.flatten item) := sound item List.mem_cons_self
    have later := ih fun other mem => sound other (List.mem_cons_of_mem _ mem)
    cases items with
    | nil =>
      have read := @Settled.read ')' (by decide) more _ soundItem
      rw [List.map_singleton, String.intercalate_singleton, TokenTree.write, String.toList_ofList]
      exact read
    | cons next items =>
      have comma (rest : List Char) :
          tokens? (',' :: ' ' :: rest) = (tokens? rest).map ([.leaf (.mark ',' false)] ++ ·) := by
        have spells : Spells [',', ' '] [.leaf (.mark ',' false)] := by decide
        exact Scan.tokens?_of_run spells rest
      have read := fun rest => @Settled.read ',' (by decide) (' ' :: rest) _ soundItem
      have operator : isOperator ',' = true := by decide
      rw [List.map_cons] at later ⊢
      have row : (", ".intercalate (TokenTree.write item :: TokenTree.write next :: items.map TokenTree.write)).toList ++
            ')' :: more = Token.write (TokenTree.flatten item) ++ ',' :: ' ' ::
          ((", ".intercalate (TokenTree.write next :: items.map TokenTree.write)).toList ++ ')' :: more) := by
        simp [String.intercalate_cons_cons, TokenTree.write]
      rw [List.map_cons, row, read, comma, later, operator, Option.map_map, Option.map_map]
      simp [Function.comp_def, Token.listed]

/-- The attribute that lists derives. -/
def deriveTokens (derives : List (List Token)) : List Token :=
  [.leaf (.mark '#' false), .opening .bracket, .leaf (.word "derive"), .opening .parenthesis] ++
    Token.listed derives ++ [.closing .parenthesis, .closing .bracket]

/-- The derives every container has, as trees. -/
def defaultDeriveTrees : List (List TokenTree) := defaultDerives.map fun name => [.leaf (.word name) .callSite]

theorem sound_defaultDeriveTrees : ∀ trees ∈ defaultDeriveTrees, Sound trees := by
  intro trees mem
  obtain ⟨name, known, rfl⟩ := List.mem_map.mp mem
  have words : (defaultDerives.all fun name => isPlainWord name.toList) = true := by decide
  have isWord : IsWordText name.toList := by
    rw [IsWordText, List.all_eq_true.mp words name known, Bool.true_or]
  exact .single (.word isWord)

theorem write_defaultDeriveTrees : defaultDeriveTrees.map TokenTree.write = defaultDerives := by
  have written (name : String) : TokenTree.write [.leaf (.word name) .callSite] = name := by
    simp [TokenTree.write, TokenTree.flatten, TokenTree.tokens, Token.write, Token.text, Leaf.text]
  rw [defaultDeriveTrees, List.map_map]
  exact (List.map_congr_left fun name _ => written name).trans (List.map_id _)

/-- The line that lists derives. -/
def deriveLine (extraDerives : List String) : String :=
  "#[derive(" ++ ", ".intercalate (defaultDerives ++ extraDerives) ++ ")]"

theorem lexes_deriveLine {extras : List (List TokenTree)} (sound : ∀ trees ∈ extras, Sound trees) :
    Lexes ((deriveLine (extras.map TokenTree.write)).toList ++ ['\n'])
      (deriveTokens ((defaultDeriveTrees ++ extras).map TokenTree.flatten)) := by
  intro more
  have all : ∀ trees ∈ defaultDeriveTrees ++ extras, Sound trees := by
    intro trees mem
    rcases List.mem_append.mp mem with mem | mem
    · exact sound_defaultDeriveTrees trees mem
    · exact sound trees mem
  -- the list begins with a letter, so the parenthesis in front of it begins no comment
  obtain ⟨rest, first⟩ : ∃ rest,
      (", ".intercalate ((defaultDeriveTrees ++ extras).map TokenTree.write)).toList = 'C' :: rest := by
    rw [List.map_append, write_defaultDeriveTrees, defaultDerives, List.cons_append, List.cons_append,
      String.intercalate_cons_cons, String.toList_append, String.toList_append]
    exact ⟨_, rfl⟩
  have list := tokens?_listed all (']' :: '\n' :: more)
  have noComment (text : List Char) : startsComment ('C' :: text) = false := startsComment_cons (by decide) text
  have opens : Spells ['#', '['] [.leaf (.mark '#' false), .opening .bracket] := by decide
  have closes : Spells [')', ']', '\n'] [.closing .parenthesis, .closing .bracket] := by decide
  have isWord : IsWordText ['d', 'e', 'r', 'i', 'v', 'e'] := by
    rw [IsWordText]
    decide
  have parenthesis (text : List Char) : Breaks ('(' :: text) := .cons (by decide) text
  have row : (deriveLine (extras.map TokenTree.write)).toList ++ ['\n'] ++ more = ['#', '['] ++
      (['d', 'e', 'r', 'i', 'v', 'e'] ++ '(' ::
        ((", ".intercalate ((defaultDeriveTrees ++ extras).map TokenTree.write)).toList ++
          ')' :: ']' :: '\n' :: more)) := by
    simp [deriveLine, write_defaultDeriveTrees]
  rw [row, Scan.tokens?_of_run opens, isWord.read (parenthesis _), tokens?_parenthesis, list]
  · have ends := Scan.tokens?_of_run closes more
    rw [List.cons_append, List.cons_append, List.cons_append, List.nil_append] at ends
    rw [ends]
    simp [Option.map_map, Function.comp_def, deriveTokens]
  · rw [first]
    exact noComment _

/-! ## Documentation -/

/-- What the documenting comments in front of a container say. One that says nothing keeps them apart from
the attributes. -/
def Declaration.documentation (d : Declaration) : List String :=
  (if d.attributes.isEmpty then [] else [""]) ++
    [" Fixed-capacity container with " ++ toString d.size ++ " inline slot" ++ (if d.size = 1 then "" else "s") ++
        " of `" ++ d.element ++ "`.",
      "",
      " Access is strict: an index outside `0.." ++ toString d.size ++ "` makes `get`, `get_mut` and",
      " `set` fail, and makes `Index`/`IndexMut` panic."]

theorem Declaration.headLines_eq (d : Declaration) : d.headLines =
    d.attributes ++ d.documentation.map ("///" ++ ·) ++ [deriveLine d.extraDerives] := by
  by_cases plain : d.attributes = [] <;>
    simp [headLines, documentation, deriveLine, plain, ← String.append_assoc]

/-- Each of them says nothing, or it is a remark behind a blank. -/
theorem Declaration.documentation_cases {d : Declaration} (isElement : IsWordText d.element.toList) :
    ∀ body ∈ d.documentation, body = "" ∨ ∃ text, body = " " ++ text ∧ IsRemark text := by
  have plural : IsRemark (if d.size = 1 then "" else "s") := by
    split
    · exact .literal
    · exact .literal
  intro body mem
  rcases List.mem_append.mp mem with mem | mem
  · split at mem
    · cases mem
    · exact .inl (List.mem_singleton.mp mem)
  · simp only [List.mem_cons, List.not_mem_nil, or_false] at mem
    rcases mem with rfl | rfl | rfl | rfl
    · have content : IsRemark ("Fixed-capacity container with " ++ (toString d.size ++ (" inline slot" ++
          ((if d.size = 1 then "" else "s") ++ (" of `" ++ (d.element ++ "`.")))))) :=
        .append .literal <| (isRemark_toString d.size).append <| .append .literal <| plural.append <|
          .append .literal <| (isRemark_of_isWordText isElement).append .literal
      refine .inr ⟨_, ?_, content⟩
      simp only [← String.append_assoc]
      rfl
    · exact .inl rfl
    · have content : IsRemark ("Access is strict: an index outside `0.." ++ (toString d.size ++
          "` makes `get`, `get_mut` and")) :=
        .append .literal <| (isRemark_toString d.size).append .literal
      refine .inr ⟨_, ?_, content⟩
      simp only [← String.append_assoc]
      rfl
    · exact .inr ⟨"`set` fail, and makes `Index`/`IndexMut` panic.", rfl, .literal⟩

/-- So each of them is read as an attribute. -/
theorem Declaration.lexes_documentation {d : Declaration} (isElement : IsWordText d.element.toList) :
    ∀ body ∈ d.documentation, Lexes (("///" ++ body).toList ++ ['\n']) (documentTokens false body.toList) := by
  intro body mem
  rcases documentation_cases isElement body mem with rfl | ⟨text, rfl, isRemark⟩
  · have spells : Spells ['/', '/', '/', '\n'] (documentTokens false []) := by decide
    exact spells.lexes
  · have spells := (spells_remark isRemark).lexes
    simpa using spells

/-! ## Containers -/

/-- The container that takes the place of a struct, with derives of its own. -/
def containerOf (item : StructItem) (size : Nat) (element : String) (derives : List String) : Declaration :=
  ⟨item.name, size, TokenTree.write item.visibility, element,
    (keptAttributes item.attributes).map fun tag => TokenTree.write tag.trees, derives⟩

/-- The derives of such a container, as tokens. -/
def deriveItems (extras : List PathPhrase) : List (List Token) :=
  (defaultDerives.map fun name => [.leaf (.word name)]) ++ extras.map fun path => TokenTree.flatten path.trees

/-- The tokens of such a container up to its fields. -/
def openingTokens (item : StructItem) (size : Nat) (element : String) (extras : List PathPhrase) : List Token :=
  ((keptAttributes item.attributes).flatMap fun tag => Token.rejoined false (TokenTree.flatten tag.trees)) ++
    ((containerOf item size element (extras.map PathPhrase.text)).documentation.flatMap fun body =>
      documentTokens false body.toList) ++
    deriveTokens (deriveItems extras) ++ TokenTree.flatten item.visibility ++
    [.leaf (.word "struct"), .leaf (.word item.name), .leaf (.mark '<' false), .leaf (.word element),
      .leaf (.mark '>' false), .opening .brace]

/-! ### Brackets -/

/-- Tokens that close the brackets that they open. -/
def Balanced (tokens : List Token) : Prop := ∀ stack, matched stack tokens = some stack

namespace Balanced
variable {tokens more : List Token}

theorem append (balanced : Balanced tokens) (balancedMore : Balanced more) : Balanced (tokens ++ more) := by
  intro stack
  rw [matched_append, balanced]
  exact balancedMore stack

theorem flatMap {α : Type} {items : List α} {read : α → List Token}
    (balanced : ∀ item ∈ items, Balanced (read item)) : Balanced (items.flatMap read) := by
  induction items with
  | nil => exact fun _ => rfl
  | cons item items ih =>
    rw [List.flatMap_cons]
    exact (balanced item List.mem_cons_self).append (ih fun item mem => balanced item (List.mem_cons_of_mem _ mem))

theorem rejoined (balanced : Balanced tokens) (operator : Bool) : Balanced (Token.rejoined operator tokens) := by
  intro stack
  rw [matched_rejoined]
  exact balanced stack

theorem trees (trees : List TokenTree) : Balanced (TokenTree.flatten trees) := by
  intro stack
  have whole := matched_trees trees stack []
  rwa [List.append_nil] at whole

theorem listed {items : List (List Token)} (balanced : ∀ item ∈ items, Balanced item) :
    Balanced (Token.listed items) := by
  induction items with
  | nil => exact fun _ => rfl
  | cons item items ih =>
    have first := balanced item List.mem_cons_self
    cases items with
    | nil => exact first.rejoined false
    | cons next items =>
      have later := ih fun other mem => balanced other (List.mem_cons_of_mem _ mem)
      exact (first.rejoined true).append fun stack => later stack

theorem bracketed (delimiter : Delimiter) (balanced : Balanced tokens) :
    Balanced (.opening delimiter :: (tokens ++ [.closing delimiter])) := by
  intro stack
  rw [matched, matched_append, balanced]
  exact if_pos rfl

end Balanced

section Container
variable {item : StructItem} (written : item.IsWritten) {element : String} (isElement : IsWordText element.toList)
  (size : Nat) {extras : List PathPhrase} (sound : ∀ path ∈ extras, Sound path.trees)

theorem balanced_openingTokens (item : StructItem) (element : String) (extras : List PathPhrase) :
    ∃ front, openingTokens item size element extras = front ++ [.opening .brace] ∧ Balanced front := by
  have derives : Balanced (deriveTokens (deriveItems extras)) := by
    have items : ∀ tokens ∈ deriveItems extras, Balanced tokens := by
      intro tokens mem
      rcases List.mem_append.mp mem with mem | mem
      · obtain ⟨name, _, rfl⟩ := List.mem_map.mp mem
        exact fun _ => rfl
      · obtain ⟨path, _, rfl⟩ := List.mem_map.mp mem
        exact .trees path.trees
    have inner := (Balanced.listed items).bracketed .parenthesis
    have word : Balanced [.leaf (.word "derive")] := fun _ => rfl
    have whole := (word.append inner).bracketed .bracket
    intro stack
    have read := whole stack
    simpa [deriveTokens, matched] using read
  have attributes : Balanced ((keptAttributes item.attributes).flatMap fun tag =>
      Token.rejoined false (TokenTree.flatten tag.trees)) :=
    .flatMap fun tag _ => (Balanced.trees tag.trees).rejoined false
  have documentation : Balanced ((containerOf item size element (extras.map PathPhrase.text)).documentation.flatMap
      fun body => documentTokens false body.toList) :=
    .flatMap fun _ _ _ => rfl
  have type : Balanced [.leaf (.word "struct"), .leaf (.word item.name), .leaf (.mark '<' false),
    .leaf (.word element), .leaf (.mark '>' false)] := fun _ => rfl
  refine ⟨_, ?_, (((attributes.append documentation).append derives).append (.trees item.visibility)).append type⟩
  simp [openingTokens]

include written

/-- A visibility is read as it is, with a blank behind it if there is one. -/
theorem lexes_visibility : Lexes
    (if (TokenTree.write item.visibility).isEmpty then "" else TokenTree.write item.visibility ++ " ").toList
    (TokenTree.flatten item.visibility) := by
  have sound := written.visibility.sound
  split
  · rename_i empty
    have nothing : Token.write (TokenTree.flatten item.visibility) = [] := by
      rw [String.isEmpty_iff, TokenTree.write] at empty
      exact String.ofList_eq_empty_iff.mp empty
    cases tokens : TokenTree.flatten item.visibility with
    | nil => exact .nil
    | cons token rest =>
      rw [Sound, tokens] at sound
      obtain ⟨c, letters, spelled⟩ := sound.head.exists_text
      have filled := Token.write_cons token rest []
      rw [← tokens, nothing, spelled] at filled
      cases filled
  · have lexes := sound.lexes ' ' (by decide) (by decide) (by decide)
    rw [written.visibility.rejoined_eq trivial] at lexes
    rwa [String.toList_append]

include isElement

theorem lexes_typeLine (derives : List String) :
    Lexes ((containerOf item size element derives).typeLine.toList ++ ['\n'])
    [.leaf (.word "struct"), .leaf (.word item.name), .leaf (.mark '<' false), .leaf (.word element),
      .leaf (.mark '>' false), .opening .brace] := by
  have front : Scan.run .apart ['s', 't', 'r', 'u', 'c', 't', ' '] = some (.apart, [.leaf (.word "struct")]) := by decide
  have opens : Scan.run .apart ['<'] = some (.mark '<', []) := by decide
  have ends : Scan.run .apart ['>', ' ', '\x7b', '\n'] = some (.apart, [.leaf (.mark '>' false), .opening .brace]) := by
    decide
  have row : (containerOf item size element derives).typeLine.toList ++ ['\n'] =
      ['s', 't', 'r', 'u', 'c', 't', ' '] ++
        (item.name.toList ++ '<' :: (element.toList ++ '>' :: [' ', '\x7b', '\n'])) := by
    simp [Declaration.typeLine, Declaration.typeText, containerOf]
  have type (rest : List Char) : Scan.run .apart ('<' :: rest) = Scan.run (.mark '<') rest := by
    have read := Scan.run_append_of_run opens rest
    rwa [Scan.emit_nil] at read
  refine Spells.lexes ?_
  rw [row, Spells, Scan.run_append_of_run front, Scan.run_word_behind rfl written.isWord (by decide), type,
    Scan.run_word_behind rfl isElement (by decide), ends]
  simp [Scan.foundBefore]

include sound

theorem lexes_headLines : Lexes
    (unlines ((containerOf item size element (extras.map PathPhrase.text)).headLines.map String.toList))
    (((keptAttributes item.attributes).flatMap fun tag => Token.rejoined false (TokenTree.flatten tag.trees)) ++
      ((containerOf item size element (extras.map PathPhrase.text)).documentation.flatMap fun body =>
        documentTokens false body.toList) ++
      deriveTokens (deriveItems extras)) := by
  have attributes : Lexes
      (unlines (((keptAttributes item.attributes).map fun tag => TokenTree.write tag.trees).map String.toList))
      ((keptAttributes item.attributes).flatMap fun tag => Token.rejoined false (TokenTree.flatten tag.trees)) :=
    .rows fun tag mem => by
      obtain ⟨_, writtenTag⟩ := written.attributes tag (List.mem_of_mem_filter mem)
      exact writtenTag.exact.sound.lexes '\n' (by decide) (by decide) (by decide)
  have documentation := Lexes.rows (Declaration.lexes_documentation
    (d := containerOf item size element (extras.map PathPhrase.text)) isElement)
  have all : ∀ trees ∈ extras.map PathPhrase.trees, Sound trees := by
    intro trees mem
    obtain ⟨path, known, rfl⟩ := List.mem_map.mp mem
    exact sound path known
  have derives := lexes_deriveLine all
  have items : deriveItems extras = (defaultDeriveTrees ++ extras.map PathPhrase.trees).map TokenTree.flatten := by
    simp [deriveItems, defaultDeriveTrees, TokenTree.flatten, TokenTree.tokens, Function.comp_def]
  have derived : (extras.map PathPhrase.trees).map TokenTree.write =
      (containerOf item size element (extras.map PathPhrase.text)).extraDerives :=
    List.map_map
  rw [derived] at derives
  have whole := (attributes.append documentation).append derives
  rw [Declaration.headLines_eq, List.map_append, List.map_append, unlines_append, unlines_append, List.map_singleton,
    unlines_singleton, items]
  exact whole

/-- The text of a container is read as these tokens and others, and its brackets match. -/
theorem exists_lexes_render : ∃ rest,
    Lexes (containerOf item size element (extras.map PathPhrase.text)).render.toList
        (openingTokens item size element extras ++ rest) ∧
      matched [] (openingTokens item size element extras ++ rest) = some [] := by
  have named := isIdentifier_of_isWordText written.isWord written.isName
  have pasteable := isPasteable_of_bare (word?_of_isWordText written.isWord) named
  obtain ⟨rest, reads, matching⟩ :=
    (Declaration.takes_behindType (d := containerOf item size element (extras.map PathPhrase.text)) isElement named).kept
      pasteable
  refine ⟨rest, ?_, ?_⟩
  · have type := (lexes_typeLine written isElement size (extras.map PathPhrase.text)).append (Spells.lexes reads)
    have whole := (lexes_headLines written isElement size sound).append ((lexes_visibility written).append type)
    rw [Declaration.toList_render_eq]
    refine Eq.mp (congrArg (Lexes _) ?_) whole
    simp only [openingTokens, List.append_assoc]
  · obtain ⟨front, same, balanced⟩ := balanced_openingTokens size item element extras
    rw [same, List.append_assoc, matched_append, balanced]
    exact matching

end Container

end SlotArray
