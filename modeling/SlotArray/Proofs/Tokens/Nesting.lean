import SlotArray.Proofs.Tokens.Rereading

/-! The document of one request as tokens. Its modules stand around its definition, and nothing else
that a document adds to a definition is a token: not the comment at its beginning, no blank line, and no
indentation. -/
namespace SlotArray
open Source Text

/-- The tokens of modules one in another, the outermost first, with tokens in the last. -/
def nestedTokens : List String → List Token → List Token
  | [], inner => inner
  | name :: path, inner =>
    .leaf (.word "pub") :: .leaf (.word "mod") :: .leaf (.word name) :: .opening .brace ::
      (nestedTokens path inner ++ [.closing .brace])

namespace Source.Spells
variable {tokens : List Token}

/-- The trees of a text have its tokens. -/
theorem flatten_ofText {text : String} {trees : List TokenTree} (spells : Spells text.toList tokens)
    (unmarked : text.toList.head? ≠ some TokenTree.byteOrderMark)
    (lexed : TokenTree.ofText? text = some trees) : TokenTree.flatten trees = tokens := by
  have found := Scan.tokens?_of_run spells []
  rw [List.append_nil, tokens?_nil, Option.map_some, List.append_nil] at found
  obtain ⟨pieces, cut, same⟩ := pieces_of_ofText? lexed
  rw [afterMark, if_neg unmarked] at cut
  rw [tokens?, cut] at found
  exact same.symm.trans (Option.some.inj found)

/-- So do the trees of a text that was made. -/
theorem flatten_reread {text : String} {span : Span} {trees : List TokenTree}
    (spells : Spells text.toList tokens)
    (unmarked : text.toList.head? ≠ some TokenTree.byteOrderMark)
    (rereads : reread text span = .ok trees) : TokenTree.flatten trees = tokens := by
  cases lexed : TokenTree.ofText? text with
  | none =>
    rw [reread, lexed] at rereads
    cases rereads
  | some found =>
    rw [reread, lexed] at rereads
    cases rereads
    exact spells.flatten_ofText unmarked lexed

end Source.Spells

/-! ## Modules -/

section Definition
variable {text : String} {tokens : List Token} (spells : Spells text.toList tokens)
include spells

theorem spells_definitionText (depth : Nat) : Spells (Document.definitionText depth text) tokens := by
  rw [Document.definitionText, ← List.append_nil tokens]
  refine (spells.indent depth).feed.append ?_
  split
  · rfl
  · decide

/-- However deep modules stand one in another, they are read as themselves around what is read in the
last of them. -/
theorem spells_chain {name : String} {path : List String}
    (segments : ∀ segment ∈ name :: path, IsSegment segment) (depth : Nat) :
    Spells ((Modules.chain text .none name path).text depth) (nestedTokens (name :: path) tokens) := by
  induction path generalizing name depth with
  | nil =>
    have opens := spells_openingText depth (segments name List.mem_cons_self)
    have whole := (opens.append (spells_definitionText spells (depth + 1))).append
      (spells_closingText depth)
    simpa [Modules.chain, Modules.text, nestedTokens] using whole
  | cons inner path ih =>
    have opens := spells_openingText depth (segments name List.mem_cons_self)
    have inside := ih (fun segment mem => segments segment (List.mem_cons_of_mem _ mem)) (depth + 1)
    have whole := (opens.append inside).append (spells_closingText depth)
    rw [nestedTokens]
    simpa [Modules.chain, Modules.text] using whole

end Definition

/-- A document of one request is read as its definition in its modules. -/
theorem spells_ofRequest {request : Request} {tokens : List Token}
    (segments : ∀ segment ∈ request.home.segments, IsSegment segment)
    (spells : Spells (request.render []).toList tokens) :
    Spells (Document.ofRequests [] [request]).render.toList
      (nestedTokens request.home.segments tokens) := by
  have modules : Spells (ModuleTree.ofFilings [(request.home, request.render [])]).text
      (nestedTokens request.home.segments tokens) := by
    cases home : request.home.segments with
    | nil =>
      have definition := spells_definitionText spells 0
      rw [nestedTokens]
      simpa [ModuleTree.ofFilings, ModuleTree.file, home, ModuleTree.text, ModuleTree.empty,
        Modules.text] using definition
    | cons name path =>
      rw [home] at segments
      have chain := spells_chain spells segments 0
      simpa [ModuleTree.ofFilings, ModuleTree.file, home, ModuleTree.text, ModuleTree.empty,
        Modules.file] using chain
  rw [Document.ofRequests_eq_ofFilings, List.map_singleton, render_ofFilings, String.toList_append,
    String.toList_ofList]
  exact spells_prologue.append modules

end SlotArray
