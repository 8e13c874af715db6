import SlotArray.Proofs.ElementNames
import SlotArray.Proofs.Scopes
import SlotArray.Proofs.Tokens.Definition

/-! The name that definitions take from around them. What they use is called by an absolute path, except
for `usize`. A type, a module or an element of that name stands nearer than the primitive type, and
nothing keeps a container from having one near it. -/
namespace SlotArray
open Document (Step written)
open Source (StructItem TokenTree identifier? identifierOf isIdentifier)

namespace Declaration

/-- Every definition says `usize`, for one thing where it gives its length. -/
theorem length_mem_lines (d : Declaration) :
    ("    pub const LENGTH: usize = " ++ toString d.size ++ ";") ∈ d.lines := by
  simp [lines, inherentLines]

/-- A definition calls its type or its element `name`. -/
def Binds (d : Declaration) (name : String) : Prop :=
  identifier? d.name = some name ∨ identifierOf d.element = name

end Declaration

theorem identifierOf_defaultElement : identifierOf defaultElement = defaultElement := by decide

example : identifierOf "r#usize" = "usize" := by decide +kernel

/-! ## Documents -/

/-- Something near a definition in the module `path` is called `name`. -/
inductive Hides (extraDerives : List String) (steps : List Step) (path : List String)
    (declaration : Declaration) (name : String) : Prop where
  | own (binds : declaration.Binds name)
  | type (declared : DeclaresType extraDerives steps path name)
  | module (declared : DeclaresModule steps path name)

section Requests
variable {feed : List Occurrence} {requests filed : List Request} {name : String}

/-- What is near the definition of a request is what the requests for its module are called, and where
the modules of the others lead. -/
theorem hides_iff (found : discover .named feed = .ok requests) (order : filed.Perm requests)
    (extraDerives : List String) {request : Request} (asked : request ∈ requests)
    (other : name ≠ defaultElement) :
    Hides extraDerives (requestSteps (·.render extraDerives) filed) request.home.segments
        (Declaration.ofRequest request extraDerives) name ↔
      (∃ sibling ∈ requests, sibling.home.segments = request.home.segments ∧
        identifier? sibling.name = some name) ∨
      ∃ sibling ∈ requests, request.home.segments ++ [name] <+: sibling.home.segments := by
  have segments := isSegment_of_perm found order
  constructor
  · rintro ((named | element) | declared | declared)
    · exact .inl ⟨request, asked, rfl, named⟩
    · exact absurd (element.symm.trans identifierOf_defaultElement) other
    · obtain ⟨sibling, known, beside⟩ := declaresType_iff.mp declared
      exact .inl ⟨sibling, order.mem_iff.mp known, beside⟩
    · obtain ⟨sibling, known, below⟩ := (declaresModule_iff segments).mp declared
      exact .inr ⟨sibling, order.mem_iff.mp known, below⟩
  · rintro (⟨sibling, known, beside⟩ | ⟨sibling, known, below⟩)
    · exact .type (declaresType_iff.mpr ⟨sibling, order.mem_iff.mpr known, beside⟩)
    · exact .module ((declaresModule_iff segments).mpr ⟨sibling, order.mem_iff.mpr known, below⟩)

end Requests

/-! ## Tagged structs -/

/-- A tagged struct has become `trees`, the tokens of a container that has its name and its element. -/
structure IsContainerOf (item : StructItem) (declaration : Declaration) (trees : List TokenTree) :
    Prop where
  name : declaration.name = Text.trimmed item.name
  element : elementOf item = .ok declaration.element
  rereads : reread declaration.render item.nameSpan = .ok trees

theorem tag?_tagged (declaration : String) (arguments : List Argument) :
    (Occurrence.tagged declaration arguments).tag? = some ⟨tagName, arguments⟩ := by
  have named : String.ofList (Text.trim (Text.afterColons tagName.toList)) = tagName := by decide +kernel
  simp [Occurrence.tag?, Occurrence.tagged, Tag.name, named]

/-- A container that is asked for in place of a declaration has its name, which is an identifier. -/
theorem name_of_inline_request {declaration : String} {arguments : List Argument} {request : Request}
    (asks : (Occurrence.tagged declaration arguments).request? .inline = .ok (some request)) :
    request.name = Text.trimmed declaration ∧ isIdentifier request.name = true := by
  rw [Occurrence.request?, tag?_tagged] at asks
  have read := mapError_eq_ok_iff.mp asks
  unfold Tag.request? at read
  split at read
  · rename_i otherShape _
    cases otherShape
  · obtain ⟨number, _, read⟩ := bind_eq_ok_iff.mp read
    split at read
    · rw [map_eq_pure_bind] at read
      obtain ⟨found, made, same⟩ := bind_eq_ok_iff.mp read
      cases same
      obtain ⟨name, readsName, same⟩ := bind_eq_ok_iff.mp made
      cases same
      exact readName_eq_ok_iff.mp readsName
    · cases read
  · cases read

section Tagged
variable {item : StructItem} {arguments trees : List TokenTree} {declaration : Declaration} {name : String}

/-- A struct that expands is left as it is, or becomes a container. -/
theorem exists_container (expanded : expandTagged item arguments = .ok trees) :
    (∃ occurrence, readTagged item.name arguments = .ok occurrence ∧
      occurrence.request? .inline = .ok none ∧ trees = item.trees) ∨
    ∃ declaration, IsContainerOf item declaration trees := by
  obtain ⟨⟨element, occurrence⟩, read, expanded⟩ := bind_eq_ok_iff.mp expanded
  obtain ⟨candidate, admitted, read⟩ := bind_eq_ok_iff.mp read
  obtain ⟨tagged, reads, same⟩ := bind_eq_ok_iff.mp read
  cases same
  cases asks : occurrence.request? .inline with
  | error fault =>
    simp only [asks] at expanded
    cases expanded
  | ok answer =>
    cases answer with
    | none =>
      simp only [asks] at expanded
      cases expanded
      exact .inl ⟨occurrence, reads, asks, rfl⟩
    | some request =>
      simp only [asks] at expanded
      obtain ⟨⟨attributes, derives⟩, _, rereads⟩ := bind_eq_ok_iff.mp expanded
      obtain ⟨exprs, _, same⟩ := bind_eq_ok_iff.mp reads
      cases same
      exact .inr ⟨_, (name_of_inline_request asks).1, admitted, rereads⟩

/-- What a container that takes the place of a struct calls its type and its element is what the struct
calls itself and its parameter. -/
theorem IsContainerOf.binds_iff (becomes : IsContainerOf item declaration trees)
    (other : name ≠ defaultElement) :
    declaration.Binds name ↔ identifier? (Text.trimmed item.name) = some name ∨
      ∃ parameter ∈ item.parameters, identifierOf parameter.name = name := by
  have isElement := ((elementOf_eq_ok_iff item declaration.element).mp becomes.element).isElement
  rw [Declaration.Binds, becomes.name]
  refine or_congr_right ?_
  generalize declaration.element = element at isElement
  generalize item.parameters = parameters at isElement
  cases isElement with
  | default =>
    have own : identifierOf defaultElement ≠ name :=
      fun same => other (same.symm.trans identifierOf_defaultElement)
    simp [own]
  | parameter type bare => simp

/-- The text of a definition does not begin with a byte order mark. -/
theorem unmarked_definition (request : Request) :
    (request.render []).toList.head? ≠ some TokenTree.byteOrderMark := by
  have first : (request.render []).toList.head? = some '/' := by
    rw [Request.render, Declaration.toList_render]
    simp [Declaration.lines, Declaration.headLines, Declaration.ofRequest, Text.unlines]
  rw [first]
  decide

/-- A public struct that is nothing but its name becomes the definition that a request under its name has. -/
theorem expandTagged_of_plain {occurrence : Occurrence} {request : Request}
    (admitted : elementOf item = .ok defaultElement) (visible : TokenTree.write item.visibility = "pub")
    (plain : item.attributes = []) (read : readTagged item.name arguments = .ok occurrence)
    (asks : occurrence.request? .inline = .ok (some request)) :
    expandTagged item arguments = reread (request.render []) item.nameSpan := by
  simp only [expandTagged, readTaggedStruct, admitted, read, bind, Except.bind, pure, Except.pure, asks,
    splitDerives, plain, visible]
  rfl

/-- If the name can be pasted, it does. -/
theorem exists_expansion {occurrence : Occurrence} {request : Request}
    (admitted : elementOf item = .ok defaultElement) (visible : TokenTree.write item.visibility = "pub")
    (plain : item.attributes = []) (read : readTagged item.name arguments = .ok occurrence)
    (asks : occurrence.request? .inline = .ok (some request))
    (pasteable : Source.isPasteable request.name = true) :
    ∃ trees, expandTagged item arguments = .ok trees := by
  obtain ⟨exprs, _, same⟩ := bind_eq_ok_iff.mp read
  cases same
  have named := (name_of_inline_request asks).2
  have kept := (request.takes_render named).kept pasteable
  obtain ⟨trees, lexed⟩ := Option.isSome_iff_exists.mp
    (Source.isSome_ofText?_of_kept kept (unmarked_definition request))
  refine ⟨trees, ?_⟩
  rw [expandTagged_of_plain admitted visible plain read asks, reread, lexed]
  rfl

end Tagged

/-- Nothing stands in the way of `usize` in a module of a document exactly if no request for the module is
called so, and no other leads through a module called so. In place of a struct, nothing does exactly if
neither the struct nor its parameter is called so. -/
theorem usize_hidden_iff {feed : List Occurrence} {requests filed : List Request}
    (found : discover .named feed = .ok requests) (order : filed.Perm requests)
    (extraDerives : List String) :
    (∀ declaration : Declaration,
      ("    pub const LENGTH: usize = " ++ toString declaration.size ++ ";") ∈ declaration.lines) ∧
    ((Document.ofRequests extraDerives filed).render = Document.prologue ++
        String.ofList ((requestSteps (·.render extraDerives) filed).flatMap Step.text) ∧
      ∀ request ∈ requests,
        (request.home.segments, (Declaration.ofRequest request extraDerives).render) ∈
            written (requestSteps (·.render extraDerives) filed) ∧
          (Hides extraDerives (requestSteps (·.render extraDerives) filed) request.home.segments
              (Declaration.ofRequest request extraDerives) "usize" ↔
            (∃ sibling ∈ requests, sibling.home.segments = request.home.segments ∧
              identifier? sibling.name = some "usize") ∨
            ∃ sibling ∈ requests, request.home.segments ++ ["usize"] <+: sibling.home.segments)) ∧
    ∀ (item : StructItem) (arguments trees : List TokenTree),
      expandTagged item arguments = .ok trees →
        (∃ occurrence, readTagged item.name arguments = .ok occurrence ∧
          occurrence.request? .inline = .ok none ∧ trees = item.trees) ∨
        ∃ declaration, IsContainerOf item declaration trees ∧
          (declaration.Binds "usize" ↔ identifier? (Text.trimmed item.name) = some "usize" ∨
            ∃ parameter ∈ item.parameters, identifierOf parameter.name = "usize") := by
  have other : "usize" ≠ defaultElement := by decide
  refine ⟨Declaration.length_mem_lines,
    ⟨render_ofRequests _ _, fun request asked => ⟨?_, hides_iff found order _ asked other⟩⟩, ?_⟩
  · exact mem_written_requestSteps_iff.mpr ⟨request, order.mem_iff.mpr asked, rfl, rfl⟩
  · intro item arguments trees expanded
    rcases exists_container expanded with untouched | ⟨declaration, becomes⟩
    · exact .inl untouched
    · exact .inr ⟨declaration, becomes, becomes.binds_iff other⟩

/-- Containers of two in the module `m`. -/
private def twosOf (names : List String) : List Occurrence :=
  names.map fun name => ⟨name, [⟨"struct_array", [.string name, .string "m", .integer 2]⟩]⟩

/-- A public struct without parameters, tagged with the size 2, becomes a container. -/
private theorem exists_tagged_two {text name : String}
    (read : (structOf text).toOption.map (fun item => (item.name, elementOf item,
        TokenTree.write item.visibility, item.attributes.length, item.parameters.length)) =
      some (name, .ok defaultElement, "pub", 0, 0))
    (asks : (Occurrence.tagged name [.integer 2]).request? .inline =
      .ok (some ⟨name, .root, ⟨2, by decide, by decide⟩⟩))
    (pasteable : Source.isPasteable name = true) :
    ∃ item arguments trees, structOf text = .ok item ∧ expandTagged item arguments = .ok trees ∧
      item.name = name ∧ item.parameters = [] ∧
        readTagged item.name arguments = .ok (.tagged name [.integer 2]) := by
  obtain ⟨item, parsed, seen⟩ := exists_structOf read
  simp only [Prod.mk.injEq, List.length_eq_zero_iff] at seen
  obtain ⟨rfl, admitted, visible, plain, bare⟩ := seen
  have two : readTagged item.name [.leaf (.literal "2") .callSite] =
      .ok (.tagged item.name [.integer 2]) := readTagged_literal item.name rfl (by decide)
  obtain ⟨trees, expanded⟩ := exists_expansion admitted visible plain two asks pasteable
  exact ⟨item, _, trees, parsed, expanded, rfl, bare, two⟩

/-- A container of another name in a module without others, and one in place of a struct of another name. -/
theorem usize_in_sight :
    (∃ requests, discover .named (twosOf ["Pair"]) = .ok requests ∧ requests.Perm requests ∧
      ∀ request ∈ requests, ¬ Hides [] (requestSteps (·.render []) requests) request.home.segments
        (Declaration.ofRequest request []) "usize") ∧
    ∃ item arguments trees, structOf "pub struct Pair;" = .ok item ∧
      expandTagged item arguments = .ok trees ∧
        ∃ declaration, IsContainerOf item declaration trees ∧ ¬ declaration.Binds "usize" := by
  obtain ⟨requests, listed⟩ : ∃ requests : List Request, requests =
      [⟨"Pair", ⟨["m"]⟩, ⟨2, by decide, by decide⟩⟩] := ⟨_, rfl⟩
  have found : discover .named (twosOf ["Pair"]) = .ok requests := by
    rw [listed]
    decide +kernel
  have named : identifier? "Pair" = some "Pair" := by decide +kernel
  obtain ⟨_, ⟨_, near⟩, becomes⟩ := usize_hidden_iff found (List.Perm.refl requests) []
  constructor
  · refine ⟨requests, found, List.Perm.refl _, fun request asked hides => ?_⟩
    have reason := (near request asked).2.mp hides
    rw [listed, List.mem_singleton] at asked
    simp only [listed, asked, List.mem_singleton, exists_eq_left, named] at reason
    exact absurd reason (by decide)
  · have asks : (Occurrence.tagged "Pair" [.integer 2]).request? .inline =
        .ok (some ⟨"Pair", .root, ⟨2, by decide, by decide⟩⟩) := by decide +kernel
    obtain ⟨item, arguments, trees, parsed, expanded, name, bare, read⟩ :=
      @exists_tagged_two "pub struct Pair;" _ (by decide +kernel) asks (by decide +kernel)
    rcases becomes item arguments trees expanded with ⟨occurrence, reads, disabled, _⟩ |
      ⟨declaration, isContainer, binds⟩
    · rw [read] at reads
      cases reads
      rw [asks] at disabled
      cases disabled
    · refine ⟨item, arguments, trees, parsed, expanded, declaration, isContainer, fun hides => ?_⟩
      have trimmed : Text.trimmed "Pair" = "Pair" := by decide
      have reason := binds.mp hides
      simp only [name, bare, trimmed, named, List.not_mem_nil, false_and, exists_false, or_false] at reason
      exact absurd reason (by decide)

/-- A container called `usize` is accepted in either shape, and hides the primitive type from itself and
from the others in its module. -/
theorem usize_hidden_by_container :
    (∃ requests, discover .named (twosOf ["usize", "Pair"]) = .ok requests ∧ requests.length = 2 ∧
      ∀ request ∈ requests, Hides [] (requestSteps (·.render []) requests) request.home.segments
        (Declaration.ofRequest request []) "usize") ∧
    ∃ item arguments trees, structOf "pub struct usize;" = .ok item ∧
      expandTagged item arguments = .ok trees ∧
        ∃ declaration, IsContainerOf item declaration trees ∧ declaration.Binds "usize" := by
  obtain ⟨requests, listed⟩ : ∃ requests : List Request, requests =
      [⟨"usize", ⟨["m"]⟩, ⟨2, by decide, by decide⟩⟩, ⟨"Pair", ⟨["m"]⟩, ⟨2, by decide, by decide⟩⟩] :=
    ⟨_, rfl⟩
  have found : discover .named (twosOf ["usize", "Pair"]) = .ok requests := by
    rw [listed]
    decide +kernel
  have named : identifier? "usize" = some "usize" := by decide +kernel
  have other : "usize" ≠ defaultElement := by decide
  constructor
  · refine ⟨requests, found, by rw [listed]; rfl, fun request asked => ?_⟩
    have clash : (⟨"usize", ⟨["m"]⟩, ⟨2, by decide, by decide⟩⟩ : Request) ∈ requests := by
      rw [listed]
      exact List.mem_cons_self
    have home : request.home = ⟨["m"]⟩ := by
      rw [listed] at asked
      rcases List.mem_pair.mp asked with rfl | rfl <;> rfl
    apply (hides_iff found (List.Perm.refl _) [] asked other).mpr
    left
    exact ⟨_, clash, by rw [home], named⟩
  · have asks : (Occurrence.tagged "usize" [.integer 2]).request? .inline =
        .ok (some ⟨"usize", .root, ⟨2, by decide, by decide⟩⟩) := by decide +kernel
    obtain ⟨item, arguments, trees, parsed, expanded, name, _, read⟩ :=
      @exists_tagged_two "pub struct usize;" _ (by decide +kernel) asks (by decide +kernel)
    rcases exists_container expanded with ⟨occurrence, reads, disabled, _⟩ | ⟨declaration, becomes⟩
    · rw [read] at reads
      cases reads
      rw [asks] at disabled
      cases disabled
    · refine ⟨item, arguments, trees, parsed, expanded, declaration, becomes, ?_⟩
      have trimmed : Text.trimmed "usize" = "usize" := by decide
      apply (becomes.binds_iff other).mpr
      left
      rw [name, trimmed, named]

end SlotArray
