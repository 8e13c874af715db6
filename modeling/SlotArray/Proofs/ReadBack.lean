import SlotArray.Generator
import SlotArray.Proofs.Accepted
import SlotArray.Proofs.DefinitionOutline
import SlotArray.Proofs.RequestLayout

/-! A generated document says all there is to say about its requests: read back line by line, it
gives each one with its module, its name and its size, and nothing else. -/
namespace SlotArray
open Document (Step)
open Outline

/-- The blocks that are open inside a module. -/
def moduleBlocks (path : List String) : List Block :=
  path.reverse.map .module

theorem moduleBlocks_append (path : List String) (name : String) :
    moduleBlocks (path ++ [name]) = .module name :: moduleBlocks path := by
  simp [moduleBlocks]

theorem openModules_moduleBlocks (path : List String) : openModules (moduleBlocks path) = path := by
  have modules : (path.reverse.map Block.module).filterMap Block.module? = path.reverse := by
    rw [List.filterMap_map]
    exact List.filterMap_some
  rw [openModules, moduleBlocks, modules, List.reverse_reverse]

/-! ## Steps -/

section Steps
variable {path : List String} {name : String}

theorem isClean_of_isSegment (segment : IsSegment name) : IsClean name := by
  constructor
  · exact fun mem => absurd (segment.chars _ mem) (by decide)
  · exact fun mem => absurd (segment.chars _ mem) (by decide)

/-- The line that opens a module opens its block. -/
theorem readsTo_opening {inner : List String} (proper : inner ≠ [])
    (segments : ∀ segment ∈ inner, IsSegment segment) (entries : List TypeEntry) :
    ReadsTo (Step.opening inner).text ⟨moduleBlocks inner.dropLast, entries⟩
      ⟨moduleBlocks inner, entries⟩ := by
  rcases List.eq_nil_or_concat inner with rfl | ⟨path, name, rfl⟩
  · exact absurd rfl proper
  · rw [List.concat_eq_append] at segments ⊢
    have row : ReadsAs ("pub mod " ++ name ++ " \x7b") _ :=
      readsAs_in_frame (by simp [frames] : moduleFrame ∈ frames)
        (isClean_of_isSegment (segments name (by simp))) (by decide) (by decide)
    rw [mark_module] at row
    have next : Reader.next ⟨moduleBlocks path, entries⟩ ⟨false, true, .module name⟩ =
        some ⟨.module name :: moduleBlocks path, entries⟩ := rfl
    have last : (path ++ [name]).getLast?.getD "" = name := by simp
    have feed : " \x7b\n" = " \x7b" ++ "\n" := by decide
    rw [Step.text, last, Document.openingText, List.dropLast_concat, moduleBlocks_append, feed,
      ← String.append_assoc, String.toList_append]
    exact (readsTo_blank _).append ((row.readsTo next).indent _)

/-- The line that closes it closes its block. -/
theorem readsTo_closing {inner : List String} (proper : inner ≠ []) (entries : List TypeEntry) :
    ReadsTo (Step.closing inner).text ⟨moduleBlocks inner, entries⟩
      ⟨moduleBlocks inner.dropLast, entries⟩ := by
  rcases List.eq_nil_or_concat inner with rfl | ⟨path, name, rfl⟩
  · exact absurd rfl proper
  · rw [List.concat_eq_append]
    have row : ReadsAs "\x7d" .closing := .literal (by decide)
    have next : Reader.next ⟨.module name :: moduleBlocks path, entries⟩ .closing =
        some ⟨moduleBlocks path, entries⟩ := rfl
    have feed : "\x7d\n" = "\x7d" ++ "\n" := by decide
    rw [Step.text, Document.closingText, List.dropLast_concat, moduleBlocks_append, feed,
      String.toList_append]
    exact (row.readsTo next).indent _

/-- A definition is read at its depth as it is by itself; the line feed it may lack is added. -/
theorem readsTo_definition {text : String} {before after : Reader}
    (reads : ReadsTo text.toList before after) (path : List String) :
    ReadsTo (Step.definition path text).text before after := by
  rw [Step.text, Document.definitionText]
  refine ReadsTo.append ((readsTo_blank _).append (reads.indent _)) ?_
  split
  · exact ReadsTo.nil _
  · exact readsTo_blank _

/-- Steps that go from one module to another take the reader there, and past the types of the requests
whose definitions they write. -/
theorem readsTo_steps {steps : List Step} {last : List String} {requests : List Request}
    (goes : GoesThrough (·.render []) last path steps requests)
    (clean : ∀ request ∈ requests, IsClean request.name) (entries : List TypeEntry) :
    ReadsTo (steps.flatMap Step.text) ⟨moduleBlocks path, entries⟩
      ⟨moduleBlocks last, (requests.map Request.entry).reverse ++ entries⟩ := by
  induction goes generalizing entries with
  | arrived => exact ReadsTo.nil _
  | opening proper segments _ ih =>
    rw [List.flatMap_cons]
    exact (readsTo_opening proper segments entries).append (ih clean entries)
  | definition request _ ih =>
    obtain ⟨own, others⟩ := List.forall_mem_cons.mp clean
    have reads := request.readsTo_render own ⟨moduleBlocks request.home.segments, entries⟩
      (openModules_moduleBlocks _)
    have first := readsTo_definition reads request.home.segments
    have later := ih others (request.entry :: entries)
    rw [List.flatMap_cons, List.map_cons, List.reverse_cons, List.append_assoc]
    exact first.append later
  | closing proper _ ih =>
    rw [List.flatMap_cons]
    exact (readsTo_closing proper entries).append (ih clean entries)

end Steps

/-! ## Documents -/

/-- The comment at the top is read over. -/
theorem readsTo_prologue (reader : Reader) : ReadsTo Document.prologue.toList reader reader := by
  have row : ReadsAs "// @generated by struct-array-gen. Do not edit by hand." .plain := .literal (by decide)
  have feed : Document.prologue = "// @generated by struct-array-gen. Do not edit by hand." ++ "\n" := by
    decide
  rw [feed, String.toList_append]
  exact row.readsTo rfl

/-- The document of requests is read back as their types, in the order of their modules. -/
theorem read_ofRequests {requests : List Request}
    (clean : ∀ request ∈ requests, IsClean request.name)
    (segments : ∀ request ∈ requests, ∀ segment ∈ request.home.segments, IsSegment segment) :
    read (Document.ofRequests [] requests).render =
      some ((sortedByHome requests).map Request.entry) := by
  have cleanSorted : ∀ request ∈ sortedByHome requests, IsClean request.name :=
    fun request mem => clean request ((List.mergeSort_perm requests _).mem_iff.mp mem)
  have reads := readsTo_steps (goesThrough_requestSteps segments) cleanSorted []
  rw [List.append_nil] at reads
  apply read_eq_of_readsTo
  rw [render_ofRequests, String.toList_append, String.toList_ofList]
  exact (readsTo_prologue _).append reads

/-- A bare name has no room for a line feed or a brace. -/
theorem isClean_of_bare {name : String} (bare : Source.word? name = some name) : IsClean name := by
  have isWord := (Source.spelling_of_word? bare).1
  exact ⟨Source.not_mem_of_isWord isWord (by decide) (by decide),
    Source.not_mem_of_isWord isWord (by decide) (by decide)⟩

/-- Whatever a feed requests, its document is read back as exactly that: every line that opens a
block is matched, and the types in it are the requests in the order of their modules, each in its
module, with its name, and with its size as its length and as the number of its fields. A name has
to stand by itself, since a comment around it would be read as a part of it. -/
theorem read_generate {feed : List Occurrence} {requests : List Request}
    (found : discover .named feed = .ok requests) (any : requests ≠ [])
    (bare : ∀ request ∈ requests, Source.word? request.name = some request.name) :
    ∃ text, Generator.initial.generate feed = .ok (some text) ∧
      read text = some ((sortedByHome requests).map fun request =>
        ⟨request.home.segments, request.name, some request.size.val, request.size.val⟩) := by
  have named := isNamed_of_discover found
  refine ⟨(Document.ofRequests [] requests).render, ?_, ?_⟩
  · have filled : requests.isEmpty = false := by simpa using any
    rw [Generator.generate, Generator.document, found]
    simp only [bind, Except.bind, filled]
    rfl
  · exact read_ofRequests (fun request mem => isClean_of_bare (bare request mem))
      fun request mem => (named request mem).segments

/-- Three declarations, the last of which belongs in front of the others. -/
private def plotFeed : List Occurrence :=
  [⟨"a", [⟨"struct_array", [.string "Polygon", .string "plot::Shapes", .integer 3]⟩]⟩,
    ⟨"b", [⟨"struct_array", [.string "r#Segment", .string "plot.shapes", .integer 2]⟩]⟩,
    ⟨"c", [⟨"struct_array", [.string "Axis", .string "plot", .integer 1]⟩]⟩]

theorem read_generate_plot :
    ∃ requests, discover .named plotFeed = .ok requests ∧ requests ≠ [] ∧
      (∀ request ∈ requests, Source.word? request.name = some request.name) ∧
      ∃ text, Generator.initial.generate plotFeed = .ok (some text) ∧
        read text = some [⟨["plot"], "Axis", some 1, 1⟩, ⟨["plot", "shapes"], "Polygon", some 3, 3⟩,
          ⟨["plot", "shapes"], "r#Segment", some 2, 2⟩] := by
  obtain ⟨requests, listed⟩ : ∃ requests : List Request, requests =
      [⟨"Polygon", ⟨["plot", "shapes"]⟩, ⟨3, by decide, by decide⟩⟩,
        ⟨"r#Segment", ⟨["plot", "shapes"]⟩, ⟨2, by decide, by decide⟩⟩,
        ⟨"Axis", ⟨["plot"]⟩, ⟨1, by decide, by decide⟩⟩] := ⟨_, rfl⟩
  have found : discover .named plotFeed = .ok requests := by
    rw [listed]
    decide +kernel
  have any : requests ≠ [] := by simp [listed]
  have bare : ∀ request ∈ requests, Source.word? request.name = some request.name := by
    rw [listed]
    decide +kernel
  have sorted : ((sortedByHome requests).map fun request => (⟨request.home.segments, request.name,
      some request.size.val, request.size.val⟩ : TypeEntry)) =
        [⟨["plot"], "Axis", some 1, 1⟩, ⟨["plot", "shapes"], "Polygon", some 3, 3⟩,
          ⟨["plot", "shapes"], "r#Segment", some 2, 2⟩] := by
    simp [sortedByHome, listed, List.mergeSort, List.MergeSort.Internal.splitInTwo, ModulePath.before]
  have readBack := read_generate found any bare
  rw [sorted] at readBack
  exact ⟨requests, found, any, bare, readBack⟩

end SlotArray
