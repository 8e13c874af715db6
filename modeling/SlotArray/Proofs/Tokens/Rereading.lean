import SlotArray.Expansion
import SlotArray.Proofs.Accepted
import SlotArray.Proofs.Tokens.Definition
import SlotArray.Proofs.RequestLayout

/-! Made text is read as tokens again. The document of accepted requests has matching brackets
however its modules nest, so it has tokens, unless a name in it cannot be pasted. -/
namespace SlotArray
open Document (Step)
open Source Text

variable {sound : Prop} {path : List String}

/-! ## Steps -/

/-- A segment is a plain word. -/
theorem IsSegment.isPlainWord {segment : String} (isSegment : IsSegment segment) :
    Source.isPlainWord segment.toList = true := by
  have isWord := (spelling_of_word? isSegment.word?_eq).1
  have same := isSegment.identifier?_eq
  rw [identifier?, isSegment.word?_eq, Option.map_some] at same
  have bare : unmarked segment.toList = segment.toList := by
    rw [← String.toList_ofList (l := unmarked segment.toList), Option.some.inj same]
  rw [IsWord, bare] at isWord
  exact (isPlainWord_iff _).mpr isWord

theorem spells_openingText (depth : Nat) {segment : String} (isSegment : IsSegment segment) :
    Spells (Document.openingText depth segment) [.leaf (.word "pub"), .leaf (.word "mod"),
      .leaf (.word segment), .opening .brace] := by
  have word : IsWordText segment.toList := by
    rw [IsWordText, isSegment.isPlainWord, Bool.true_or]
  have front : Spells "pub mod ".toList [.leaf (.word "pub"), .leaf (.word "mod")] := by decide
  have brace : Spells [' ', '\x7b', '\n'] [.opening .brace] := by decide
  have name : Spells (segment.toList ++ [' ', '\x7b', '\n'])
      [.leaf (.word segment), .opening .brace] := by
    rw [Spells, Scan.run_word_break word (by decide : isBreak ' ' = true), brace,
      String.ofList_toList]
    rfl
  have row := front.append name
  rw [Document.openingText]
  refine (Spells.indent ?_ depth).feed
  simpa using row

theorem spells_closingText (depth : Nat) : Spells (Document.closingText depth) [.closing .brace] := by
  have row : Spells "\x7d\n".toList [.closing .brace] := by decide
  exact row.indent depth

theorem kept_opening {inner : List String} (proper : inner ≠ [])
    (segments : ∀ segment ∈ inner, IsSegment segment) : Kept (Step.opening inner).text [] [.brace] := by
  rcases List.eq_nil_or_concat inner with rfl | ⟨path, name, rfl⟩
  · exact absurd rfl proper
  · rw [List.concat_eq_append] at segments ⊢
    have last : (path ++ [name]).getLast?.getD "" = name := by simp
    rw [Step.text, last]
    exact ⟨_, spells_openingText _ (segments name (by simp)), rfl⟩

theorem kept_closing (inner : List String) : Kept (Step.closing inner).text [.brace] [] :=
  ⟨_, spells_closingText _, rfl⟩

theorem takes_definition {missing : Nat} {text : String} (takes : Takes sound missing text.toList [] [])
    (path : List String) : Takes sound missing (Step.definition path text).text [] [] := by
  rw [Step.text, Document.definitionText]
  refine Takes.append (takes.indent _).feed (Kept.takes ?_)
  split
  · exact kept_nil []
  · exact Kept.feed (kept_nil [])

private theorem length_eq_of_ne_nil {inner : List String} (proper : inner ≠ []) :
    inner.length = inner.dropLast.length + 1 := by
  rw [List.length_dropLast]
  have filled := List.length_pos_of_ne_nil proper
  omega

/-- Steps that go from one module to another leave open one brace for each module. They miss brackets as
often as they write a definition with a name that cannot be pasted. -/
theorem takes_steps {steps : List Step} {last : List String} {requests : List Request}
    (goes : GoesThrough (·.render []) last path steps requests)
    (named : ∀ request ∈ requests, isIdentifier request.name = true)
    (pasteable : sound → ∀ request ∈ requests, isPasteable request.name = true) :
    Takes sound (requests.countP fun request => !isPasteable request.name) (steps.flatMap Step.text)
      (List.replicate path.length .brace) (List.replicate last.length .brace) := by
  induction goes with
  | arrived => exact (kept_nil _).takes
  | @opening inner steps requests proper segments _ ih =>
    have first := (kept_opening proper segments).frame (List.replicate inner.dropLast.length .brace)
    have later := ih named pasteable
    rw [length_eq_of_ne_nil proper] at later
    rw [List.flatMap_cons, ← Nat.zero_add (List.countP _ _)]
    exact first.takes.append later
  | @definition request steps requests _ ih =>
    obtain ⟨own, others⟩ := List.forall_mem_cons.mp named
    have takes := (request.takes_render own).imp fun holds => pasteable holds request List.mem_cons_self
    have first := (takes_definition takes request.home.segments).frame
      (List.replicate request.home.segments.length .brace)
    have later := ih others fun holds other mem => pasteable holds other (List.mem_cons_of_mem _ mem)
    have counted : List.countP (fun request => !isPasteable request.name) (request :: requests) =
        (if isPasteable request.name = true then 0 else 1) +
          List.countP (fun request => !isPasteable request.name) requests := by
      rw [List.countP_cons, Nat.add_comm]
      cases isPasteable request.name <;> rfl
    rw [List.flatMap_cons, counted]
    exact first.append later
  | @closing inner steps requests proper _ ih =>
    have first := (kept_closing inner).frame (List.replicate inner.dropLast.length .brace)
    have later := ih named pasteable
    rw [List.flatMap_cons, length_eq_of_ne_nil proper, ← Nat.zero_add (List.countP _ _)]
    exact first.takes.append later

/-! ## Documents -/

/-- The comment that a document begins with is no token. -/
theorem spells_prologue : Spells Document.prologue.toList [] := by decide

theorem kept_prologue : Kept Document.prologue.toList [] [] := ⟨[], spells_prologue, rfl⟩

theorem unmarked_render (document : Document) :
    document.render.toList.head? ≠ some TokenTree.byteOrderMark := by
  have first : Document.prologue.toList.head? = some '/' := by decide
  rw [Document.render, String.toList_append, List.head?_append, first, Option.some_or]
  decide

section Requests
variable {requests : List Request}

/-- The document of requests misses a bracket for every name that cannot be pasted. -/
theorem takes_ofRequests (named : ∀ request ∈ requests, IsNamed request) :
    Takes (∀ request ∈ requests, isPasteable request.name = true)
      (requests.countP fun request => !isPasteable request.name)
      (Document.ofRequests [] requests).render.toList [] [] := by
  have sorted : (sortedByHome requests).Perm requests := List.mergeSort_perm requests _
  have takes := @takes_steps (∀ request ∈ requests, isPasteable request.name = true) _ _ _ _
    (goesThrough_requestSteps fun request mem => (named request mem).segments)
    (fun request mem => (named request (sorted.mem_iff.mp mem)).identifier)
    fun holds request mem => holds request (sorted.mem_iff.mp mem)
  rw [sorted.countP_eq] at takes
  rw [render_ofRequests, String.toList_append, String.toList_ofList,
    ← Nat.zero_add (List.countP _ _)]
  exact kept_prologue.takes.append takes

section Entries
variable {trees : List TokenTree} {entries : List Entry}

/-- What accepted entries expand to is their document, read as tokens. -/
theorem expandEntries_of_discover (read : readEntries trees = .ok entries)
    (found : discover .named (entries.map Entry.occurrence) = .ok requests) (any : requests ≠ []) :
    expandEntries trees = reread (Document.ofRequests [] requests).render .callSite := by
  have filled : requests.isEmpty = false := by simpa using any
  have generated : Generator.initial.generate (entries.map Entry.occurrence) =
      .ok (some (Document.ofRequests [] requests).render) := by
    rw [Generator.generate, Generator.document, found]
    simp only [bind, Except.bind, filled]
    rfl
  simp only [expandEntries, read, bind, Except.bind, generated]

/-- Where every name can be pasted, they expand. -/
theorem expandEntries_of_pasteable (read : readEntries trees = .ok entries)
    (found : discover .named (entries.map Entry.occurrence) = .ok requests)
    (pasteable : ∀ request ∈ requests, isPasteable request.name = true) :
    ∃ tokens, expandEntries trees = .ok tokens := by
  by_cases any : requests = []
  · subst any
    have generated : Generator.initial.generate (entries.map Entry.occurrence) = .ok none := by
      rw [Generator.generate, Generator.document, found]
      rfl
    refine ⟨[], ?_⟩
    simp only [expandEntries, read, bind, Except.bind, generated]
    rfl
  · have kept := (takes_ofRequests (isNamed_of_discover found)).kept pasteable
    obtain ⟨tokens, lexed⟩ := Option.isSome_iff_exists.mp
      (isSome_ofText?_of_kept kept (unmarked_render _))
    refine ⟨tokens, ?_⟩
    rw [expandEntries_of_discover read found any, reread, lexed]
    rfl

/-- Where one cannot be, they are refused. -/
theorem expandEntries_of_unpasteable (read : readEntries trees = .ok entries)
    (found : discover .named (entries.map Entry.occurrence) = .ok requests)
    (unpasteable : ∃ request ∈ requests, isPasteable request.name = false) :
    expandEntries trees = .error (.refused .unreadable .callSite) := by
  obtain ⟨request, mem, unsound⟩ := unpasteable
  have any : requests ≠ [] := List.ne_nil_of_mem mem
  have short := (takes_ofRequests (isNamed_of_discover found)).short fun holds => by
    rw [holds request mem] at unsound
    cases unsound
  have missing : 0 < requests.countP fun request => !isPasteable request.name :=
    List.countP_pos_iff.mpr ⟨request, mem, by rw [unsound]; rfl⟩
  rw [expandEntries_of_discover read found any, reread, ofText?_of_short short missing (unmarked_render _)]
  rfl

/-- Accepted entries expand to tokens exactly if every name among them can be pasted, and otherwise
what was made of them is refused as no source text. -/
theorem expansion_readable_iff (read : readEntries trees = .ok entries)
    (found : discover .named (entries.map Entry.occurrence) = .ok requests) :
    ((∃ tokens, expandEntries trees = .ok tokens) ↔
      ∀ request ∈ requests, isPasteable request.name = true) ∧
    (expandEntries trees = .error (.refused .unreadable .callSite) ↔
      ∃ request ∈ requests, isPasteable request.name = false) := by
  by_cases pasteable : ∀ request ∈ requests, isPasteable request.name = true
  · obtain ⟨tokens, expanded⟩ := expandEntries_of_pasteable read found pasteable
    refine ⟨⟨fun _ => pasteable, fun _ => ⟨tokens, expanded⟩⟩, fun refused => ?_, ?_⟩
    · rw [expanded] at refused
      cases refused
    · rintro ⟨request, mem, unsound⟩
      rw [pasteable request mem] at unsound
      cases unsound
  · have unpasteable : ∃ request ∈ requests, isPasteable request.name = false := by
      simpa using pasteable
    have refused := expandEntries_of_unpasteable read found unpasteable
    refine ⟨⟨fun ⟨tokens, expanded⟩ => ?_, fun holds => absurd holds pasteable⟩,
      fun _ => unpasteable, fun _ => refused⟩
    rw [refused] at expanded
    cases expanded

/-- Two names, with a comment in front of one and behind the other. -/
theorem expansion_readable_comments :
    ∃ trees entries requests, readEntries trees = .ok entries ∧
      discover .named (entries.map Entry.occurrence) = .ok requests ∧
      ∃ tokens, expandEntries trees = .ok tokens := by
  have lexed : (tokensOf "(\"/* left */ A\", \"m\", 1), (\"B /* right */\", \"m\", 2)" >>= readEntries) =
      .ok [⟨.tagged (entryLabel 0) [.string "/* left */ A", .string "m", .integer 1], ⟨⟨1, 0⟩, ⟨1, 24⟩⟩⟩,
        ⟨.tagged (entryLabel 1) [.string "B /* right */", .string "m", .integer 2],
          ⟨⟨1, 26⟩, ⟨1, 51⟩⟩⟩] := by
    decide +kernel
  obtain ⟨trees, _, read⟩ := bind_eq_ok_iff.mp lexed
  have found : discover .named
      [.tagged (entryLabel 0) [.string "/* left */ A", .string "m", .integer 1],
        .tagged (entryLabel 1) [.string "B /* right */", .string "m", .integer 2]] =
      .ok [⟨"/* left */ A", ⟨["m"]⟩, ⟨1, by decide, by decide⟩⟩,
        ⟨"B /* right */", ⟨["m"]⟩, ⟨2, by decide, by decide⟩⟩] := by decide +kernel
  exact ⟨trees, _, _, read, found, (expansion_readable_iff read found).1.mpr (by decide +kernel)⟩

/-- A name that an open comment follows is accepted, and what is made of it is no source text. -/
theorem open_comment_unreadable :
    ∃ trees entries requests, readEntries trees = .ok entries ∧
      discover .named (entries.map Entry.occurrence) = .ok requests ∧
      expandEntries trees = .error (.refused .unreadable .callSite) := by
  have lexed : (tokensOf "(\"A//\", \"m\", 2)" >>= readEntries) =
      .ok [⟨.tagged (entryLabel 0) [.string "A//", .string "m", .integer 2], ⟨⟨1, 0⟩, ⟨1, 15⟩⟩⟩] := by
    decide +kernel
  obtain ⟨trees, _, read⟩ := bind_eq_ok_iff.mp lexed
  have found : discover .named [.tagged (entryLabel 0) [.string "A//", .string "m", .integer 2]] =
      .ok [⟨"A//", ⟨["m"]⟩, ⟨2, by decide, by decide⟩⟩] := by decide +kernel
  have unpasteable : isPasteable "A//" = false := by decide +kernel
  exact ⟨trees, _, _, read, found,
    expandEntries_of_unpasteable read found ⟨_, List.mem_singleton_self _, unpasteable⟩⟩

end Entries
end Requests

end SlotArray
