import SlotArray.Proofs.DistinctTypes
import SlotArray.Proofs.TaggedStructs

/-! Containers that are called like their element. Both shapes refuse them, but they compare the two
names as they are written, and one identifier is written in several ways. -/
namespace SlotArray
open Source (StructItem word? identifier?)

namespace Source
variable {word other text identifier : String}

/-- The identifier that a word stands for. -/
def identifierOf (word : String) : String := String.ofList (unmarked word.toList)

theorem identifier?_eq_some_iff :
    identifier? text = some identifier ↔ ∃ word, word? text = some word ∧ identifierOf word = identifier :=
  Option.map_eq_some_iff

/-- The marked one of two words for one identifier. -/
structure IsMarkOf (marked bare : String) : Prop where
  marks : marked.toList = 'r' :: '#' :: bare.toList
  unmarked : unmarked bare.toList = bare.toList

theorem IsMarkOf.identifierOf_eq (isMark : IsMarkOf word other) : identifierOf word = identifierOf other := by
  rw [identifierOf, identifierOf, isMark.marks, isMark.unmarked]
  rfl

/-- Two words for one identifier differ in the mark alone. -/
theorem identifierOf_eq_iff (apart : word ≠ other) :
    identifierOf word = identifierOf other ↔ IsMarkOf word other ∨ IsMarkOf other word := by
  constructor
  · intro same
    have inner : unmarked word.toList = unmarked other.toList := String.ofList_injective same
    rcases eq_unmarked_or_marked word.toList with bare | marked
    · rcases eq_unmarked_or_marked other.toList with bareToo | marked
      · exact absurd (String.toList_injective (bare.trans (inner.trans bareToo.symm))) apart
      · right
        exact ⟨by rw [marked, ← inner, ← bare], bare.symm⟩
    · rcases eq_unmarked_or_marked other.toList with bare | markedToo
      · left
        exact ⟨by rw [marked, inner, ← bare], bare.symm⟩
      · rw [inner, ← markedToo] at marked
        exact absurd (String.toList_injective marked) apart
  · rintro (isMark | isMark)
    · exact isMark.identifierOf_eq
    · exact isMark.identifierOf_eq.symm

/-- A text that stands for an identifier without being that identifier itself. -/
inductive IsDisguise (text identifier : String) : Prop where
  /-- It is marked, and there may be something around it. -/
  | marked {word : String} (single : word? text = some word) (isMark : IsMarkOf word identifier)
  /-- It is not marked, so there is something around it. -/
  | surrounded (single : word? text = some identifier) (apart : text ≠ identifier)

/-- A text other than an identifier stands for it exactly if it is a disguise of it. -/
theorem identifier?_eq_iff_isDisguise (bare : unmarked identifier.toList = identifier.toList)
    (apart : text ≠ identifier) : identifier? text = some identifier ↔ IsDisguise text identifier := by
  have own : identifierOf identifier = identifier := by
    rw [identifierOf, bare, String.ofList_toList]
  rw [identifier?_eq_some_iff]
  constructor
  · rintro ⟨word, single, stands⟩
    by_cases same : word = identifier
    · subst same
      exact .surrounded single apart
    · rcases (identifierOf_eq_iff same).mp (stands.trans own.symm) with isMark | isMark
      · exact .marked single isMark
      · -- an identifier that stands for itself has no mark
        rw [isMark.marks] at bare
        have lengths := congrArg List.length bare
        simp only [unmarked, List.length_cons] at lengths
        omega
  · rintro (⟨single, isMark⟩ | ⟨single, _⟩)
    · exact ⟨_, single, isMark.identifierOf_eq.trans own⟩
    · exact ⟨_, single, own⟩

end Source

open Source (identifierOf IsMarkOf IsDisguise)

/-- A container gets a name other than that of its element. It is called like its element all the same
if the name is a disguise of the element's, for a named container, or if a mark is all that tells the
two apart, for a tagged struct; and only then. -/
theorem called_like_element_iff (occurrence : Occurrence) (item : StructItem) :
    (∀ request, occurrence.request? .named = .ok (some request) → request.name ≠ defaultElement ∧
      (identifier? request.name = some defaultElement ↔ IsDisguise request.name defaultElement)) ∧
    ∀ element, elementOf item = .ok element → item.name ≠ element ∧
      (identifierOf item.name = identifierOf element ↔
        IsMarkOf item.name element ∨ IsMarkOf element item.name) := by
  constructor
  · intro request asks
    have apart := (isNamed_of_request? asks).notElement
    exact ⟨apart, Source.identifier?_eq_iff_isDisguise rfl apart⟩
  · intro element admitted
    have apart := ((elementOf_eq_ok_iff item element).mp admitted).apart
    exact ⟨apart, Source.identifierOf_eq_iff apart⟩

/-- A container of two in the module `m`. -/
private def twoOf (name : String) : Occurrence :=
  ⟨"a", [⟨"struct_array", [.string name, .string "m", .integer 2]⟩]⟩

/-- Other names are no disguises. -/
theorem called_apart_from_element :
    (∃ request, (twoOf "Pair").request? .named = .ok (some request) ∧
      identifier? request.name ≠ some defaultElement ∧ ¬ IsDisguise request.name defaultElement) ∧
    ∃ item, structOf "struct Buffer<Slot>;" = .ok item ∧ elementOf item = .ok "Slot" ∧
      ¬ (IsMarkOf item.name "Slot" ∨ IsMarkOf "Slot" item.name) := by
  have asks : (twoOf "Pair").request? .named =
      .ok (some ⟨"Pair", ⟨["m"]⟩, ⟨2, by decide, by decide⟩⟩) := by decide +kernel
  have other : identifier? "Pair" ≠ some defaultElement := by decide +kernel
  have read : (structOf "struct Buffer<Slot>;").toOption.map (fun item => (item.name, elementOf item)) =
      some ("Buffer", .ok "Slot") := by decide +kernel
  obtain ⟨item, parsed, seen⟩ := exists_structOf read
  obtain ⟨name, admitted⟩ := Prod.mk.inj seen
  obtain ⟨named, tagged⟩ := called_like_element_iff (twoOf "Pair") item
  constructor
  · exact ⟨_, asks, other, fun disguise => other ((named _ asks).2.mpr disguise)⟩
  · refine ⟨item, parsed, admitted, fun marked => ?_⟩
    have same := (tagged "Slot" admitted).2.mpr marked
    rw [name] at same
    exact absurd same (by decide)

/-- With a mark, a named container of `T`s and a tagged struct are called like their elements, and are
accepted. -/
theorem called_like_element_marked :
    (∃ request, (twoOf "r#T").request? .named = .ok (some request) ∧
      identifier? request.name = some defaultElement) ∧
    ∃ item, structOf "struct r#T;" = .ok item ∧
      ∃ element, elementOf item = .ok element ∧ identifierOf item.name = identifierOf element := by
  constructor
  · have asks : (twoOf "r#T").request? .named =
        .ok (some ⟨"r#T", ⟨["m"]⟩, ⟨2, by decide, by decide⟩⟩) := by decide +kernel
    have stands : identifier? "r#T" = some defaultElement := by decide +kernel
    exact ⟨_, asks, stands⟩
  · have read : (structOf "struct r#T;").toOption.map (fun item => (item.name, elementOf item)) =
        some ("r#T", .ok "T") := by decide +kernel
    obtain ⟨item, parsed, seen⟩ := exists_structOf read
    obtain ⟨name, admitted⟩ := Prod.mk.inj seen
    exact ⟨item, parsed, "T", admitted, by rw [name]; decide⟩

end SlotArray
