import SlotArray.Proofs.Accepted

/-! The types a feed asks for. Discovery tells requests apart by their names as they were read, while a
type is called by the identifier that such a text stands for. A mark, blanks or comments make another
text of the same identifier. -/
namespace SlotArray
open Source (IsPlainWord IsTrivia identifier? afterMark)

/-- A text that is one identifier: the identifier may be marked, and there may be blanks and comments
around it. -/
structure Source.IsSpelling (text identifier : String) : Prop where
  plain : IsPlainWord identifier.toList
  spelled : ∃ (before after : List (List Char)) (mark : List Char), (mark = [] ∨ mark = ['r', '#']) ∧
    afterMark text.toList = before.flatten ++ (mark ++ identifier.toList) ++ after.flatten ∧
      ∀ part ∈ before ++ after, part ≠ [] ∧ IsTrivia part

theorem Source.isSpelling_of_identifier? {text identifier : String}
    (found : identifier? text = some identifier) : IsSpelling text identifier := by
  obtain ⟨word, single, same⟩ := Option.map_eq_some_iff.mp found
  have inner : identifier.toList = unmarked word.toList := by
    rw [← same, String.toList_ofList]
  obtain ⟨isWord, before, after, spelled, trivia⟩ := spelling_of_word? single
  constructor
  · rw [inner]
    exact isWord
  · rcases eq_unmarked_or_marked word.toList with bare | marked
    · refine ⟨before, after, [], .inl rfl, ?_, trivia⟩
      rw [spelled, inner, ← bare]
      rfl
    · refine ⟨before, after, ['r', '#'], .inr rfl, ?_, trivia⟩
      rw [spelled, inner]
      exact congrArg (before.flatten ++ · ++ after.flatten) marked

example : identifier? "r#Pair /* of two */" = some "Pair" := by decide +kernel

/-- The type that a request asks for: its module, and the identifier that its name stands for. -/
def Request.type (request : Request) : ModulePath × Option String :=
  (request.home, identifier? request.name)

section Accepted
variable {feed : List Occurrence} {requests : List Request}

/-- A name that discovery lets through stands for an identifier. -/
theorem IsNamed.exists_identifier {request : Request} (named : IsNamed request) :
    ∃ identifier, identifier? request.name = some identifier := by
  obtain ⟨word, single, _⟩ := (Source.isIdentifier_iff request.name).mp named.identifier
  rw [identifier?, single]
  exact ⟨_, rfl⟩

/-- Requests that share no name and module share no type either, unless the type is spelled in two
ways. -/
theorem nodup_type_iff (distinct : (requests.map Request.key).Nodup) :
    (requests.map Request.type).Nodup ↔
      ∀ first ∈ requests, ∀ second ∈ requests, first.type = second.type → first.name = second.name := by
  constructor
  · intro apart first known second knownToo same
    exact congrArg Request.name (List.inj_on_of_nodup_map apart known knownToo same)
  · intro spelledOnce
    refine List.Nodup.map_on ?_ distinct.of_map
    intro first known second knownToo same
    have home : first.home = second.home := (Prod.mk.inj same).1
    have name : first.name = second.name := spelledOnce first known second knownToo same
    exact List.inj_on_of_nodup_map distinct known knownToo (Prod.mk.injEq .. ▸ ⟨home, name⟩)

/-- Every name that a feed asks for stands for an identifier, and the types it asks for differ
whenever none of them is spelled in two ways. Discovery promises no more: names that differ in a mark
or in what surrounds them are different names to it. -/
theorem types_distinct_iff (found : discover .named feed = .ok requests) :
    (∀ request ∈ requests, ∃ identifier, request.type = (request.home, some identifier) ∧
      Source.IsSpelling request.name identifier) ∧
    ((requests.map Request.type).Nodup ↔
      ∀ first ∈ requests, ∀ second ∈ requests, first.type = second.type → first.name = second.name) := by
  constructor
  · intro request mem
    obtain ⟨identifier, stands⟩ := (isNamed_of_discover found request mem).exists_identifier
    refine ⟨identifier, ?_, Source.isSpelling_of_identifier? stands⟩
    rw [Request.type, stands]
  · exact nodup_type_iff (discovered_of_discover found).distinct

end Accepted

/-- Containers of pairs in two modules, one by an unmarked name and one by a marked name. -/
private def pairFeed (home otherHome : String) : List Occurrence :=
  [⟨"a", [⟨"struct_array", [.string "Pair", .string home, .integer 2]⟩]⟩,
    ⟨"b", [⟨"struct_array", [.string "r#Pair", .string otherHome, .integer 3]⟩]⟩]

/-- In two modules they are two types. -/
theorem types_distinct_apart :
    ∃ requests, discover .named (pairFeed "m" "n") = .ok requests ∧ requests.length = 2 ∧
      ∀ first ∈ requests, ∀ second ∈ requests, first.type = second.type → first.name = second.name := by
  obtain ⟨requests, listed⟩ : ∃ requests : List Request, requests =
      [⟨"Pair", ⟨["m"]⟩, ⟨2, by decide, by decide⟩⟩, ⟨"r#Pair", ⟨["n"]⟩, ⟨3, by decide, by decide⟩⟩] :=
    ⟨_, rfl⟩
  have found : discover .named (pairFeed "m" "n") = .ok requests := by
    rw [listed]
    decide +kernel
  have types : requests.map Request.type = [(⟨["m"]⟩, some "Pair"), (⟨["n"]⟩, some "Pair")] := by
    rw [listed]
    decide +kernel
  refine ⟨requests, found, by simp [listed], (types_distinct_iff found).2.mp ?_⟩
  rw [types]
  simp

/-- In one module they are one type, and discovery accepts them. -/
theorem types_not_distinct_in_one_module :
    ∃ feed requests, discover .named feed = .ok requests ∧ ¬ (requests.map Request.type).Nodup := by
  obtain ⟨requests, listed⟩ : ∃ requests : List Request, requests =
      [⟨"Pair", ⟨["m"]⟩, ⟨2, by decide, by decide⟩⟩, ⟨"r#Pair", ⟨["m"]⟩, ⟨3, by decide, by decide⟩⟩] :=
    ⟨_, rfl⟩
  have found : discover .named (pairFeed "m" "m") = .ok requests := by
    rw [listed]
    decide +kernel
  have types : requests.map Request.type = [(⟨["m"]⟩, some "Pair"), (⟨["m"]⟩, some "Pair")] := by
    rw [listed]
    decide +kernel
  refine ⟨pairFeed "m" "m", requests, found, ?_⟩
  rw [types]
  simp

end SlotArray
