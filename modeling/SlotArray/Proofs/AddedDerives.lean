import SlotArray.Manifest
import SlotArray.Proofs.Sections
import SlotArray.Proofs.Outline
import SlotArray.Proofs.Splits
import SlotArray.Proofs.TaggedOutcomes

/-! The derives that are added to those of every container. A pass adds what its settings say, as it stands
there, so it is left to them not to repeat anything; the derives of a tagged struct are looked through
before they are added. -/
namespace SlotArray
open Text Definition Outline
open Source (TokenTree Token StructItem PathPhrase IsWordText)

/-- Added derives repeat nothing: none of them is there twice, and none is one that a container has anyway. -/
structure RepeatNothing (added : List PathPhrase) : Prop where
  distinct : (added.map PathPhrase.text).Nodup
  isAdded : ∀ path ∈ added, isAdded path = true

/-- The path that a text is, if it is one. -/
def Source.path? (text : String) : Option PathPhrase :=
  match TokenTree.ofText? text >>= Source.readPaths with
  | some [path] => some path
  | _ => none

/-- The texts of added derives are paths that repeat nothing. -/
def TextsRepeatNothing (texts : List String) : Prop :=
  ∃ added, texts.mapM Source.path? = some added ∧ RepeatNothing added

/-! ## What a definition lists -/

/-- How a line lists derives. -/
def deriveFrame : Frame := ⟨"#[derive(".toList, ")]".toList⟩

/-- What the first line with derives lists behind those of every container, each behind a comma and a
blank. -/
def addedDerives? (definition : String) : Option (List String) :=
  ((rowsOf definition).find? fun row => deriveFrame.front.isPrefixOf row.toList).bind fun row =>
    (deriveFrame.name? row.toList).map fun derives =>
      ((splitWhere (· == ',') derives.toList).drop defaultDerives.length).map fun piece =>
        String.ofList (piece.drop 1)

/-- What may be one of several derives on a line. -/
structure IsEntry (text : String) : Prop where
  single : ',' ∉ text.toList
  oneRow : IsRow text.toList

section Texts
variable {texts : List String} (entries : ∀ text ∈ texts, IsEntry text)
include entries

theorem entries_of_defaultDerives : ∀ text ∈ defaultDerives ++ texts, IsEntry text := by
  intro text mem
  rcases List.mem_append.mp mem with known | mem
  · have clean : (defaultDerives.all fun name => !name.toList.contains ',' && !name.toList.contains '\n') = true := by
      decide
    have both := List.all_eq_true.mp clean text known
    simp only [Bool.and_eq_true, Bool.not_eq_true', ← Bool.not_eq_true, List.contains_iff_mem] at both
    exact ⟨both.1, both.2⟩
  · exact entries text mem

theorem isRow_deriveLine : IsRow (deriveLine texts).toList := by
  have rows : ∀ text ∈ defaultDerives ++ texts, IsRow text.toList :=
    fun text mem => (entries_of_defaultDerives entries text mem).oneRow
  exact isRow_append_text (isRow_append_text (by decide) (isRow_intercalate (by decide) rows)) (by decide)

/-- The line of derives is cut at its commas. -/
theorem splitWhere_derives :
    (splitWhere (· == ',') (", ".intercalate (defaultDerives ++ texts)).toList).drop defaultDerives.length =
      texts.map fun text => ' ' :: text.toList := by
  have single : ∀ text ∈ defaultDerives ++ texts, ',' ∉ text.toList :=
    fun text mem => (entries_of_defaultDerives entries text mem).single
  obtain ⟨first, others, same⟩ : ∃ first others, defaultDerives = first :: others := ⟨_, _, rfl⟩
  rw [same, List.cons_append] at single ⊢
  rw [splitWhere_intercalate single, List.length_cons, List.drop_succ_cons, List.map_append,
    List.drop_left' (List.length_map _)]

end Texts

/-- The documentation of a container that was asked for is written in rows. -/
theorem isRow_documentation (request : Request) (texts : List String) :
    ∀ row ∈ (Declaration.ofRequest request texts).documentation.map ("///" ++ ·), IsRow row.toList := by
  refine List.forall_mem_map.mpr fun body mem => isRow_append_text (by decide) ?_
  have element : IsWordText defaultElement.toList := by
    rw [IsWordText]
    decide
  obtain rfl | ⟨text, rfl, remark⟩ :=
    @Declaration.documentation_cases (Declaration.ofRequest request texts) element body mem
  · exact List.not_mem_nil
  · exact isRow_append_text (by decide) remark.1

/-- A definition lists what was added to it. -/
theorem addedDerives?_render (request : Request) {texts : List String} (entries : ∀ text ∈ texts, IsEntry text) :
    addedDerives? (request.render texts) = some texts := by
  obtain ⟨d, same⟩ : ∃ d, d = Declaration.ofRequest request texts := ⟨_, rfl⟩
  have head : d.headLines = d.documentation.map ("///" ++ ·) ++ [deriveLine texts] := by
    rw [Declaration.headLines_eq, same, Declaration.ofRequest, List.nil_append]
  have clean : ∀ row ∈ d.headLines, IsRow row.toList := by
    rw [head, same]
    exact List.forall_mem_append.mpr ⟨isRow_documentation request texts,
      List.forall_mem_singleton.mpr (isRow_deriveLine entries)⟩
  have rows : rowsOf (request.render texts) = d.headLines ++
      rowsOf (textOf (d.typeLines ++ d.inherentLines ++ d.operatorLines ++ d.traitLines)) := by
    refine rowsOf_of_unlines clean ?_
    rw [Request.render, ← same, Declaration.toList_render, toList_textOf, ← unlines_append, ← List.map_append,
      Declaration.lines]
    simp only [List.append_assoc]
  have remarks : (d.documentation.map ("///" ++ ·)).find?
      (fun row => deriveFrame.front.isPrefixOf row.toList) = none := by
    refine List.find?_eq_none.mpr (List.forall_mem_map.mpr fun remark _ => ?_)
    rw [String.toList_append]
    exact Bool.false_ne_true
  have framed : (deriveLine texts).toList =
      deriveFrame.front ++ ((", ".intercalate (defaultDerives ++ texts)).toList ++ deriveFrame.back) := by
    rw [deriveLine, String.toList_append, String.toList_append, List.append_assoc]
    rfl
  have lists : deriveFrame.front.isPrefixOf (deriveLine texts).toList = true := by
    rw [framed]
    exact List.isPrefixOf_iff_prefix.mpr (List.prefix_append _ _)
  have found : (rowsOf (request.render texts)).find? (fun row => deriveFrame.front.isPrefixOf row.toList) =
      some (deriveLine texts) := by
    rw [rows, head, List.append_assoc, List.find?_append, remarks, Option.none_or]
    exact List.find?_cons_of_pos lists
  rw [addedDerives?, found, Option.bind_some, name?_eq_some_iff.mpr framed, Option.map_some,
    splitWhere_derives entries, List.map_map]
  refine congrArg some (Eq.trans (List.map_congr_left fun text _ => ?_) (List.map_id texts))
  exact String.ofList_toList

/-! ## Passes -/

/-- Paths that are added one after another come behind those of the manifest. -/
theorem extraDerives_foldl (texts : List String) (generator : Generator) :
    (texts.foldl Generator.withExtraDerive generator).extraDerives = generator.extraDerives ++ texts := by
  induction texts generalizing generator with
  | nil => exact (List.append_nil _).symm
  | cons text texts ih =>
    rw [List.foldl_cons, ih, Generator.withExtraDerive, List.append_assoc, List.singleton_append]

/-- The definitions of a pass add nothing twice if its settings do not. -/
theorem definitions_repeat_nothing_iff {generator : Generator} {feed : List Occurrence} {document : Document}
    (made : generator.document feed = .ok (some document))
    (entries : ∀ text ∈ generator.extraDerives, IsEntry text) :
    (∀ home, ∀ definition ∈ document.definitionsOf home,
        ∃ texts, addedDerives? definition = some texts ∧ TextsRepeatNothing texts) ↔
      TextsRepeatNothing generator.extraDerives := by
  obtain ⟨requests, _, made⟩ := bind_eq_ok_iff.mp made
  obtain ⟨request, others, rfl⟩ : ∃ request others, requests = request :: others := by
    cases requests with
    | nil => cases made
    | cons request others => exact ⟨request, others, rfl⟩
  cases made
  constructor
  · intro every
    have known : request.render generator.extraDerives ∈
        (Document.ofRequests generator.extraDerives (request :: others)).definitionsOf request.home := by
      rw [Document.definitionsOf_ofRequests]
      exact List.mem_map_of_mem (List.mem_filter.mpr ⟨List.mem_cons_self, decide_eq_true rfl⟩)
    obtain ⟨texts, added, nothing⟩ := every _ _ known
    rw [addedDerives?_render request entries] at added
    cases added
    exact nothing
  · intro nothing home definition known
    rw [Document.definitionsOf_ofRequests] at known
    obtain ⟨request, _, rfl⟩ := List.mem_map.mp known
    exact ⟨_, addedDerives?_render request entries, nothing⟩

/-! ## Tagged structs -/

theorem repeatNothing_of_texts {paths extras : List PathPhrase} (sublist : extras.Sublist (paths.filter isAdded))
    (texts : extras.map PathPhrase.text = addedTexts paths) : RepeatNothing extras := by
  refine ⟨?_, fun path mem => (List.mem_filter.mp (sublist.subset mem)).2⟩
  rw [texts]
  exact nodup_addedTexts paths

/-- Whatever the settings of a pass add is listed by each of its definitions, behind the derives of every
container: the definitions repeat nothing just if neither the manifest nor the calls do. What is added to a
tagged struct repeats nothing whatever its attributes list. -/
theorem added_derives_repeat_nothing_iff (generator : Generator) (feed : List Occurrence) (document : Document)
    (made : generator.document feed = .ok (some document))
    (entries : ∀ text ∈ generator.extraDerives, IsEntry text) :
    ((∀ home, ∀ definition ∈ document.definitionsOf home,
        ∃ texts, addedDerives? definition = some texts ∧ TextsRepeatNothing texts) ↔
      TextsRepeatNothing generator.extraDerives) ∧
    (∀ (config : Config) (calls : List String),
      (calls.foldl Generator.withExtraDerive (Generator.ofConfig config)).extraDerives =
        config.extraDerives ++ calls) ∧
    ∀ (source : String) (item : StructItem) (arguments : List TokenTree) (element : String) (size : SlotCount),
      structOf source = .ok item → Becomes item arguments element size →
        ∃ container front extras rest, expandTagged item arguments = .ok container ∧
          TokenTree.flatten container = front ++ deriveTokens (deriveItems extras) ++ rest ∧ RepeatNothing extras := by
  refine ⟨definitions_repeat_nothing_iff made entries, fun config calls => ?_, ?_⟩
  · rw [extraDerives_foldl, Generator.ofConfig]
  · intro source item arguments element size declared becomes
    have written := isWritten_of_structOf declared
    obtain ⟨paths, extras, container, rest, listed, sublist, texts, reads, same⟩ := becomes.exists_trees written
    obtain ⟨front, behind, split⟩ : ∃ front behind, openingTokens item size.val element extras =
        front ++ deriveTokens (deriveItems extras) ++ behind := ⟨_, _, List.append_assoc _ _ _⟩
    refine ⟨container, front, extras, behind ++ rest, (ending_iff written).mpr (.container becomes listed reads), ?_,
      repeatNothing_of_texts sublist texts⟩
    rw [same, split, List.append_assoc]

/-- A manifest for one container, with a derive of its own. -/
private def derivingManifest (derive : String) : String :=
  "[generator]\nextra_derives = [\"" ++ derive ++ "\"]\n[[struct_array]]\nname = \"A\"\nnamespace = \"\"\nsize = 1\n"

/-- What becomes of such a manifest. -/
private theorem document_of_derivingManifest {derive : String} {request : Request}
    (parses : (Manifest.parse (derivingManifest derive) "manifest.toml").toOption.map (fun manifest =>
      (manifest.config.extraDerives, discover .named manifest.occurrences)) = some ([derive], .ok [request])) :
    ∃ manifest document, Manifest.parse (derivingManifest derive) "manifest.toml" = .ok manifest ∧
      manifest.config.extraDerives = [derive] ∧
      (Generator.ofConfig manifest.config).document manifest.occurrences = .ok (some document) ∧
      request.render [derive] ∈ document.definitionsOf request.home := by
  cases parsed : Manifest.parse (derivingManifest derive) "manifest.toml" with
  | error error =>
    rw [parsed] at parses
    cases parses
  | ok manifest =>
    rw [parsed] at parses
    obtain ⟨settings, found⟩ := Prod.mk.inj (Option.some.inj parses)
    refine ⟨manifest, .ofRequests [derive] [request], rfl, settings, ?_, ?_⟩
    · rw [Generator.document, found, Generator.ofConfig, settings]
      rfl
    · rw [Document.definitionsOf_ofRequests]
      refine List.mem_map_of_mem (List.mem_filter.mpr ⟨List.mem_singleton_self request, ?_⟩)
      exact decide_eq_true rfl

/-- A derive that no container has by itself is added. -/
theorem added_derives_name_order :
    ∃ manifest document, Manifest.parse (derivingManifest "Ord") "manifest.toml" = .ok manifest ∧
      (Generator.ofConfig manifest.config).document manifest.occurrences = .ok (some document) ∧
      (∀ text ∈ manifest.config.extraDerives, IsEntry text) ∧
      ∀ home, ∀ definition ∈ document.definitionsOf home,
        ∃ texts, addedDerives? definition = some texts ∧ TextsRepeatNothing texts := by
  obtain ⟨manifest, document, parsed, settings, made, known⟩ :=
    @document_of_derivingManifest "Ord" ⟨"A", .root, ⟨1, by decide, by decide⟩⟩ (by decide +kernel)
  have entries : ∀ text ∈ (Generator.ofConfig manifest.config).extraDerives, IsEntry text := by
    rw [Generator.ofConfig, settings]
    exact List.forall_mem_singleton.mpr ⟨by decide, by decide⟩
  have reads : (["Ord"].mapM Source.path?).map (fun added => added.map isAdded) = some [true] := by decide +kernel
  obtain ⟨added, read, fresh⟩ := Option.map_eq_some_iff.mp reads
  obtain ⟨path, rfl, isNew⟩ := List.map_eq_singleton_iff.mp fresh
  have nothing : TextsRepeatNothing (Generator.ofConfig manifest.config).extraDerives := by
    rw [Generator.ofConfig, settings]
    exact ⟨[path], read, List.nodup_singleton _, List.forall_mem_singleton.mpr isNew⟩
  exact ⟨manifest, document, parsed, made, entries,
    (added_derives_repeat_nothing_iff _ _ document made entries).1.mpr nothing⟩

/-- So is one that every container has. -/
theorem added_derives_repeat_clone :
    ∃ manifest document definition, Manifest.parse (derivingManifest "Clone") "manifest.toml" = .ok manifest ∧
      (Generator.ofConfig manifest.config).document manifest.occurrences = .ok (some document) ∧
      definition ∈ document.definitionsOf .root ∧
      ¬ ∃ texts, addedDerives? definition = some texts ∧ TextsRepeatNothing texts := by
  obtain ⟨manifest, document, parsed, settings, made, known⟩ :=
    @document_of_derivingManifest "Clone" ⟨"A", .root, ⟨1, by decide, by decide⟩⟩ (by decide +kernel)
  have entries : ∀ text ∈ ["Clone"], IsEntry text := List.forall_mem_singleton.mpr ⟨by decide, by decide⟩
  refine ⟨manifest, document, _, parsed, made, known, ?_⟩
  rintro ⟨texts, listed, added, read, nothing⟩
  rw [addedDerives?_render _ entries] at listed
  cases listed
  have reads : (["Clone"].mapM Source.path?).map (fun added => added.map isAdded) = some [false] := by decide +kernel
  rw [read] at reads
  obtain ⟨path, rfl, provided⟩ := List.map_eq_singleton_iff.mp (Option.some.inj reads)
  have fresh := nothing.isAdded path List.mem_cons_self
  rw [provided] at fresh
  cases fresh

end SlotArray
