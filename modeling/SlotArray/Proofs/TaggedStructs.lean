import SlotArray.Expansion
import SlotArray.Proofs.Accepted

/-! Tagged structs. The declaration is looked at before the size: only one that could become a
container is left as it is when the size is 0, and the others are refused whatever the size. -/
namespace SlotArray
open Source (TokenTree Span StructItem Parameter)

/-- The element that type parameters leave: the default without any, the one that there is if it is
a plain type parameter. -/
inductive ElementName : List Parameter → String → Prop where
  | default : ElementName [] defaultElement
  | parameter {parameter : Parameter} (type : parameter.kind = .type) (bare : parameter.isBare = true) :
      ElementName [parameter] parameter.name

/-- A declaration that can become a container of `element`. -/
structure Admits (item : StructItem) (element : String) : Prop where
  fieldless : item.hasFields = false
  unconditional : item.whereClause? = none
  isElement : ElementName item.parameters element
  apart : item.name ≠ element

/-- The element that type parameters leave, or what is wrong with them. -/
def elementOfParameters : List Parameter → Except InvocationError String
  | [] => .ok defaultElement
  | [parameter] =>
    if parameter.kind = .type && parameter.isBare then .ok parameter.name
    else .error (.refused .noPlainParameter (TokenTree.spanOf parameter.trees))
  | _ :: extra :: _ => .error (.refused .tooManyParameters (TokenTree.spanOf extra.trees))

/-- What is wrong with a declaration, in the order in which it is found. -/
theorem elementOf_eq (item : StructItem) :
    elementOf item =
      if item.hasFields then .error (.refused .hasFields (TokenTree.spanOf item.fieldGroup))
      else
        match item.whereClause? with
        | some clause => .error (.refused .hasWhereClause (TokenTree.spanOf clause))
        | none =>
          (elementOfParameters item.parameters).bind fun element =>
            if item.name = element then .error (.refused (.nameOfElement element) item.nameSpan)
            else .ok element := by
  unfold elementOf
  cases item.hasFields with
  | true => rfl
  | false =>
    cases item.whereClause? with
    | some clause => rfl
    | none =>
      rcases item.parameters with _ | ⟨parameter, _ | ⟨extra, others⟩⟩
      · by_cases same : item.name = defaultElement <;>
          simp only [elementOfParameters, same] <;> rfl
      · by_cases plain : (parameter.kind = .type && parameter.isBare) = true
        · by_cases same : item.name = parameter.name <;>
            simp only [elementOfParameters, plain, same, ↓reduceIte] <;> rfl
        · simp only [elementOfParameters, plain]
          rfl
      · rfl

theorem elementOfParameters_eq_ok_iff (parameters : List Parameter) (element : String) :
    elementOfParameters parameters = .ok element ↔ ElementName parameters element := by
  constructor
  · intro found
    unfold elementOfParameters at found
    split at found
    · cases found
      exact .default
    · split at found
      · rename_i plain
        cases found
        rw [Bool.and_eq_true, decide_eq_true_eq] at plain
        exact .parameter plain.1 plain.2
      · cases found
    · cases found
  · rintro (_ | ⟨type, bare⟩)
    · rfl
    · rw [elementOfParameters, type, bare]
      rfl

/-- Exactly the declarations that can become a container have an element. -/
theorem elementOf_eq_ok_iff (item : StructItem) (element : String) :
    elementOf item = .ok element ↔ Admits item element := by
  rw [elementOf_eq]
  constructor
  · intro found
    split at found
    · cases found
    · rename_i fieldless
      split at found
      · cases found
      · rename_i unconditional
        obtain ⟨candidate, named, found⟩ := bind_eq_ok_iff.mp found
        split at found
        · cases found
        · rename_i apart
          cases found
          exact ⟨Bool.eq_false_iff.mpr fieldless, unconditional,
            (elementOfParameters_eq_ok_iff _ _).mp named, apart⟩
  · rintro ⟨fieldless, unconditional, isElement, apart⟩
    rw [fieldless, unconditional, (elementOfParameters_eq_ok_iff _ _).mpr isElement]
    exact if_neg apart

/-- What a declaration is refused for. Each reason asks that none of the earlier ones is given. -/
inductive Refuses (item : StructItem) : Refusal → Span → Prop
  | fields (filled : item.hasFields = true) : Refuses item .hasFields (TokenTree.spanOf item.fieldGroup)
  | clause {clause : List TokenTree} (fieldless : item.hasFields = false)
      (given : item.whereClause? = some clause) : Refuses item .hasWhereClause (TokenTree.spanOf clause)
  | parameters {first second : Parameter} {others : List Parameter} (fieldless : item.hasFields = false)
      (unconditional : item.whereClause? = none) (several : item.parameters = first :: second :: others) :
      Refuses item .tooManyParameters (TokenTree.spanOf second.trees)
  | parameter {parameter : Parameter} (fieldless : item.hasFields = false)
      (unconditional : item.whereClause? = none) (single : item.parameters = [parameter])
      (unfit : ¬ (parameter.kind = .type ∧ parameter.isBare = true)) :
      Refuses item .noPlainParameter (TokenTree.spanOf parameter.trees)
  | name {element : String} (fieldless : item.hasFields = false) (unconditional : item.whereClause? = none)
      (isElement : ElementName item.parameters element) (same : item.name = element) :
      Refuses item (.nameOfElement element) item.nameSpan

theorem elementOf_of_refuses {item : StructItem} {refusal : Refusal} {span : Span}
    (refuses : Refuses item refusal span) : elementOf item = .error (.refused refusal span) := by
  rw [elementOf_eq]
  cases refuses with
  | fields filled => exact if_pos filled
  | clause fieldless given => simp only [fieldless, given, Bool.false_eq_true, ↓reduceIte]
  | parameters fieldless unconditional several =>
    simp only [fieldless, unconditional, several, Bool.false_eq_true, ↓reduceIte]
    rfl
  | @parameter parameter fieldless unconditional single unfit =>
    have refused : ¬ (decide (parameter.kind = .type) && parameter.isBare) = true := by
      rw [Bool.and_eq_true, decide_eq_true_eq]
      exact unfit
    simp only [fieldless, unconditional, single, Bool.false_eq_true, ↓reduceIte, elementOfParameters, refused]
    rfl
  | name fieldless unconditional isElement same =>
    rw [fieldless, unconditional, (elementOfParameters_eq_ok_iff _ _).mpr isElement]
    exact if_pos same

/-- What is refused does not become a container. -/
theorem Refuses.not_admits {item : StructItem} {refusal : Refusal} {span : Span}
    (refuses : Refuses item refusal span) (element : String) : ¬ Admits item element := by
  intro admits
  have found := (elementOf_eq_ok_iff item element).mpr admits
  rw [elementOf_of_refuses refuses] at found
  cases found

/-- A declaration can become a container, or it is refused. -/
theorem admits_or_refuses (item : StructItem) :
    (∃ element, Admits item element) ∨ ∃ refusal span, Refuses item refusal span := by
  by_cases filled : item.hasFields = true
  · exact .inr ⟨_, _, .fields filled⟩
  have fieldless := Bool.eq_false_iff.mpr filled
  cases unconditional : item.whereClause? with
  | some clause => exact .inr ⟨_, _, .clause fieldless unconditional⟩
  | none =>
    have named (element : String) (isElement : ElementName item.parameters element) :
        (∃ element, Admits item element) ∨ ∃ refusal span, Refuses item refusal span := by
      by_cases same : item.name = element
      · exact .inr ⟨_, _, .name fieldless unconditional isElement same⟩
      · exact .inl ⟨element, fieldless, unconditional, isElement, same⟩
    rcases given : item.parameters with _ | ⟨parameter, _ | ⟨second, others⟩⟩
    · exact named defaultElement (given ▸ .default)
    · by_cases fits : parameter.kind = .type ∧ parameter.isBare = true
      · exact named parameter.name (given ▸ .parameter fits.1 fits.2)
      · exact .inr ⟨_, _, .parameter fieldless unconditional given fits⟩
    · exact .inr ⟨_, _, .parameters fieldless unconditional given⟩

/-- The size 0 alone between the parentheses of a tag. -/
def zeroArguments (span : Span) : List TokenTree := [.leaf (.literal "0") span]

/-- A literal alone between the parentheses is the only argument. -/
theorem readTagged_literal {text : String} {argument : Argument} {span : Span} (declaration : String)
    (read : Source.readExprs [.leaf (.literal text) span] =
      some [.literal text [.leaf (.literal text) span]])
    (value : Argument.ofLiteral? text = some argument) :
    readTagged declaration [.leaf (.literal text) span] = .ok (.tagged declaration [argument]) := by
  simp only [readTagged, exprsOf, read, Option.elim_some]
  simp [Argument.ofExpr, value, bind, Except.bind]
  rfl

theorem readTagged_zeroArguments (declaration : String) (span : Span) :
    readTagged declaration (zeroArguments span) = .ok (.tagged declaration [.integer 0]) :=
  readTagged_literal declaration rfl (by decide)

/-- With size 0, all that is asked of a declaration is that it has an element. -/
theorem expandTagged_zeroArguments (item : StructItem) (span : Span) :
    expandTagged item (zeroArguments span) = (elementOf item).map fun _ => item.trees := by
  have disabled : (Occurrence.tagged item.name [.integer 0]).request? .inline = .ok none := rfl
  rw [expandTagged, readTaggedStruct, readTagged_zeroArguments]
  cases elementOf item with
  | error error => rfl
  | ok element =>
    simp only [bind, Except.bind, pure, Except.pure, disabled, Except.map]

/-- Size 0 leaves a declaration as it is exactly when it could become a container; otherwise the
declaration is refused for the first thing that is wrong with it: its fields, a where clause, the number
of its parameters, what its parameter is, or its name. Neither its attributes nor how far it can be seen
matter. -/
theorem size_zero_untouched_iff (item : StructItem) (span : Span) :
    (expandTagged item (zeroArguments span) = .ok item.trees ↔ ∃ element, Admits item element) ∧
      (∀ trees, expandTagged item (zeroArguments span) = .ok trees → trees = item.trees) ∧
      ∀ error, expandTagged item (zeroArguments span) = .error error ↔
        ∃ refusal place, Refuses item refusal place ∧ error = .refused refusal place := by
  rw [expandTagged_zeroArguments]
  rcases admits_or_refuses item with ⟨element, admits⟩ | ⟨refusal, place, refuses⟩
  · rw [(elementOf_eq_ok_iff item element).mpr admits, Except.map]
    refine ⟨⟨fun _ => ⟨element, admits⟩, fun _ => rfl⟩, fun trees same => (Except.ok.inj same).symm, fun error => ?_⟩
    refine ⟨nofun, ?_⟩
    rintro ⟨refusal, place, refuses, _⟩
    exact absurd admits (refuses.not_admits element)
  · have found := elementOf_of_refuses refuses
    rw [found, Except.map]
    refine ⟨⟨nofun, fun ⟨element, admits⟩ => absurd admits (refuses.not_admits element)⟩, nofun, fun error => ⟨?_, ?_⟩⟩
    · rintro ⟨⟩
      exact ⟨refusal, place, refuses, rfl⟩
    · rintro ⟨other, elsewhere, refusesToo, rfl⟩
      cases found.symm.trans (elementOf_of_refuses refusesToo)
      rfl

/-- A text that declares a struct, with what can be seen of the struct. -/
theorem exists_structOf {α : Type} {text : String} {view : StructItem → α} {seen : α}
    (read : (structOf text).toOption.map view = some seen) :
    ∃ item, structOf text = .ok item ∧ view item = seen := by
  cases parsed : structOf text with
  | error error =>
    rw [parsed] at read
    cases read
  | ok item =>
    rw [parsed] at read
    exact ⟨item, rfl, Option.some.inj read⟩

/-- A struct with a field is refused even with size 0. -/
theorem size_zero_refuses_fields :
    ∃ item, structOf "struct Full \x7b a: u8 \x7d" = .ok item ∧
      ∀ span, expandTagged item (zeroArguments span) ≠ .ok item.trees := by
  have read : (structOf "struct Full \x7b a: u8 \x7d").toOption.map StructItem.hasFields =
      some true := by decide +kernel
  obtain ⟨item, parsed, fields⟩ := exists_structOf read
  refine ⟨item, parsed, fun span => ?_⟩
  rw [expandTagged_zeroArguments, elementOf_eq, if_pos fields]
  exact nofun

end SlotArray
