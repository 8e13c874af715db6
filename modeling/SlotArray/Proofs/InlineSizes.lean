import SlotArray.Proofs.PrimitiveNames
import SlotArray.Proofs.Verdicts
import SlotArray.Proofs.Written.Containers
import SlotArray.Proofs.Written.Numerals

/-! The size of a tagged struct, from the way it is written to what is made of it. A numeral may stand
for any number, and a minus sign may stand in front of it: up to the largest integer the argument is
exactly that number, and beyond it is none, so no number is taken for another one. -/
namespace SlotArray
open Source Text

namespace Source

/-- Leaves of a text that are known as tokens are known as trees, but for their places. -/
theorem forall₂_of_flatten {trees : List TokenTree} {leaves : List Leaf} (visible : TokenTree.AreVisible trees)
    (flat : TokenTree.flatten trees = leaves.map Token.leaf) :
    List.Forall₂ (fun tree leaf => ∃ span, tree = TokenTree.leaf leaf span) trees leaves := by
  induction trees generalizing leaves with
  | nil =>
    rw [TokenTree.flatten] at flat
    obtain rfl := List.map_eq_nil_iff.mp flat.symm
    exact .nil
  | cons tree trees ih =>
    rw [TokenTree.flatten] at flat
    cases tree with
    | leaf inner span =>
      cases leaves with
      | nil => cases flat
      | cons leaf leaves =>
        rw [TokenTree.tokens, List.singleton_append, List.map_cons] at flat
        obtain ⟨same, later⟩ := List.cons.inj flat
        obtain rfl := Token.leaf.inj same
        exact .cons ⟨span, rfl⟩ (ih visible.2 later)
    | group delimiter content span =>
      cases leaves with
      | nil => cases flat
      | cons leaf leaves => cases flat
    | invisible content span => exact visible.1.elim

/-- Blanks have no tokens. -/
theorem tokens?_blanks {blanks : List Char} (blank : ∀ c ∈ blanks, isSeparator c = true)
    (rest : List Char) : tokens? (blanks ++ rest) = tokens? rest := by
  induction blanks with
  | nil => rfl
  | cons c blanks ih =>
    rw [List.cons_append, tokens?_separator (blank c List.mem_cons_self)]
    exact ih fun d mem => blank d (List.mem_cons_of_mem c mem)

end Source

/-- A size as it is written: a numeral, perhaps behind a minus sign, and blanks anywhere around them. -/
structure WrittenSize where
  numeral : Numeral
  negated : Bool
  before : List Char
  /-- The blanks behind the sign, if there is one. -/
  between : List Char
  behind : List Char
  blank : ∀ c ∈ before ++ (between ++ behind), isSeparator c = true

namespace WrittenSize

/-- The sign with the blanks behind it. -/
def sign (size : WrittenSize) : List Char := if size.negated then '-' :: size.between else []

def text (size : WrittenSize) : String :=
  String.ofList (size.before ++ (size.sign ++ (size.numeral.text ++ size.behind)))

/-- The number that is written, with its sign. -/
def value (size : WrittenSize) : Int :=
  if size.negated then -(size.numeral.value : Int) else size.numeral.value

/-- How the size is printed: with one blank behind the sign, and none around it. -/
def printed (size : WrittenSize) : String :=
  (if size.negated then "- " else "") ++ String.ofList size.numeral.text

/-- The argument that the size is: its number as long as 128 bits hold the number and its sign. -/
def argument (size : WrittenSize) : Argument :=
  if size.numeral.value < 2 ^ 127 then .integer size.value else .other size.printed

variable (size : WrittenSize)

/-! ## Reading -/

theorem endsNumber_behind : EndsNumber size.behind := by
  intro c mem
  have blank := size.blank c (by simp [List.mem_of_mem_head? mem])
  refine ⟨isIdentContinue_of_isSeparator blank, ?_⟩
  rintro rfl
  exact absurd blank (by decide)

/-- The leaves of the size. -/
def leaves (size : WrittenSize) : List Leaf :=
  (if size.negated then [.mark '-' false] else []) ++ [.literal (String.ofList size.numeral.text)]

/-- What stands behind the sign does not go on with it. -/
theorem startsOperator_behind_sign :
    startsOperator (size.between ++ (size.numeral.text ++ size.behind)) = false := by
  have plain {c : Char} {rest : List Char} (other : c ∉ operators) : startsOperator (c :: rest) = false := by
    rw [startsOperator, isOperator_eq, Bool.and_eq_false_imp]
    intro operator
    exact absurd (List.contains_iff_mem.mp operator) other
  cases between : size.between with
  | nil =>
    obtain ⟨c, rest, same, digit⟩ := size.numeral.exists_text_eq
    rw [List.nil_append, same, List.cons_append]
    refine plain fun operator => ?_
    have none : (operators.all fun c => !c.isDigit) = true := by decide
    have noDigit := List.all_eq_true.mp none c operator
    rw [digit] at noDigit
    cases noDigit
  | cons c rest =>
    have blank := size.blank c (by simp [between])
    rw [List.cons_append]
    refine plain fun operator => ?_
    have none : (operators.all fun c => !isSeparator c) = true := by decide
    have noBlank := List.all_eq_true.mp none c operator
    rw [blank] at noBlank
    cases noBlank

theorem tokens?_text : tokens? size.text.toList = some (size.leaves.map Token.leaf) := by
  have before : ∀ c ∈ size.before, isSeparator c = true := fun c mem => size.blank c (by simp [mem])
  have between : ∀ c ∈ size.between, isSeparator c = true := fun c mem => size.blank c (by simp [mem])
  have behind : ∀ c ∈ size.behind, isSeparator c = true := fun c mem => size.blank c (by simp [mem])
  have number : tokens? (size.numeral.text ++ size.behind) =
      some [.leaf (.literal (String.ofList size.numeral.text))] := by
    have none := tokens?_blanks behind []
    rw [List.append_nil, tokens?_nil] at none
    rw [size.numeral.tokens?_text size.endsNumber_behind, none]
    rfl
  have apart := size.startsOperator_behind_sign
  rw [text, String.toList_ofList, tokens?_blanks before, sign, leaves]
  cases size.negated with
  | false => exact number
  | true =>
    simp only [if_true, List.cons_append]
    rw [tokens?_mark (by decide) (piece?_operator (by decide) _), apart, tokens?_blanks between, number]
    rfl

/-- The largest integer of an argument takes 127 bits. -/
theorem le_maxInteger_iff {number : Nat} : number ≤ maxInteger ↔ number < 2 ^ 127 := by
  unfold maxInteger
  omega

section Written
variable (text : String) (span later : Span)

theorem write_literal : TokenTree.write [.leaf (.literal text) span] = text := by
  simp [TokenTree.write, TokenTree.flatten, TokenTree.tokens, Token.write, Token.text, Leaf.text]

theorem write_negative :
    TokenTree.write [.leaf (.mark '-' false) span, .leaf (.literal text) later] = "- " ++ text := by
  rw [← String.toList_inj]
  simp [TokenTree.write, TokenTree.flatten, TokenTree.tokens, Token.write, Token.text, Leaf.text, Token.gap]

end Written

/-- All that is written is one expression, and the expression is the argument. -/
theorem exists_expr : ∃ trees expr, tokensOf size.text = .ok trees ∧ readExprs trees = some [expr] ∧
    Argument.ofExpr expr = size.argument := by
  have matching : matched [] (size.leaves.map Token.leaf) = some [] := by
    unfold leaves
    cases size.negated <;> rfl
  obtain ⟨trees, lexed, flat⟩ := exists_trees_of_tokens? size.tokens?_text matching
  have tokens : tokensOf size.text = .ok trees := by
    rw [tokensOf, lexed]
    rfl
  have placed := forall₂_of_flatten (TokenTree.areVisible_ofText? lexed) flat
  have means := size.numeral.ofText_text
  unfold leaves at placed
  unfold argument value printed
  cases negated : size.negated with
  | false =>
    simp only [negated, Bool.false_eq_true, if_false, List.nil_append] at placed
    obtain _ | ⟨⟨span, rfl⟩, _ | _⟩ := placed
    refine ⟨_, .literal _ [.leaf (.literal _) span], tokens, rfl, ?_⟩
    simp only [Argument.ofExpr, Argument.ofLiteral?, means, le_maxInteger_iff]
    split
    · rfl
    · exact congrArg Argument.other ((write_literal _ _).trans String.empty_append.symm)
  | true =>
    simp only [negated, if_true, List.singleton_append] at placed
    obtain _ | ⟨⟨span, rfl⟩, _ | ⟨⟨later, rfl⟩, _ | _⟩⟩ := placed
    refine ⟨_, .negative _ [.leaf (.mark '-' false) span, .leaf (.literal _) later], tokens, rfl, ?_⟩
    simp only [Argument.ofExpr, Argument.ofNegative?, means, le_maxInteger_iff]
    split
    · rfl
    · exact congrArg Argument.other (write_negative _ _ _)

/-! ## Asking -/

theorem argument_eq_integer_iff {value : Int} :
    size.argument = .integer value ↔ size.numeral.value < 2 ^ 127 ∧ value = size.value := by
  unfold argument
  split
  · rename_i fits
    exact ⟨fun same => ⟨fits, (Argument.integer.inj same).symm⟩, fun known => by rw [known.2]⟩
  · rename_i large
    exact ⟨nofun, fun known => absurd known.1 large⟩

theorem kind_argument_eq_other_iff : size.argument.kind = .other ↔ 2 ^ 127 ≤ size.numeral.value := by
  unfold argument
  split
  · rename_i fits
    exact ⟨nofun, fun large => absurd fits (Nat.not_lt.mpr large)⟩
  · rename_i large
    exact ⟨fun _ => Nat.not_lt.mp large, fun _ => rfl⟩

theorem value_eq_zero_iff : size.value = 0 ↔ size.numeral.value = 0 := by
  unfold value
  split <;> omega

/-- Only a number without a sign is one of slots. -/
theorem value_eq_val_iff {count : SlotCount} :
    (count.val : Int) = size.value ↔ size.negated = false ∧ count.val = size.numeral.value := by
  have positive := count.pos
  unfold value
  cases size.negated with
  | false => simp
  | true =>
    simp only [if_true, Bool.true_eq_false, false_and, iff_false]
    omega

/-- What a single argument in place of a declaration is answered. -/
theorem answer_iff {declaration : String} {argument : Argument}
    {outcome : Except SchemaError (Option Request)} :
    (Occurrence.tagged declaration [argument]).request? .inline = outcome ↔
      Answer .inline declaration (some ⟨tagName, [argument]⟩) outcome :=
  request?_iff (isFirstAsking_iff.mpr (tag?_tagged declaration [argument]))

section Answers
variable (declaration : String)

/-- It asks for a container if it is a number of slots. -/
theorem request?_eq_some_iff (request : Request) :
    (Occurrence.tagged declaration [size.argument]).request? .inline = .ok (some request) ↔
      size.negated = false ∧ request.size.val = size.numeral.value ∧ request.home = .root ∧
        readName declaration = .ok request.name := by
  have known {value : Int} := @size.argument_eq_integer_iff value
  generalize size.argument = argument at known
  rw [answer_iff]
  constructor
  · intro answer
    cases answer with
    | asked rule =>
      cases rule with
      | @inline count identifier =>
        obtain ⟨unsigned, counted⟩ := size.value_eq_val_iff.mp (known.mp rfl).2
        exact ⟨unsigned, counted, rfl, readName_eq_ok_iff.mpr ⟨rfl, identifier⟩⟩
  · obtain ⟨name, home, count⟩ := request
    rintro ⟨unsigned, counted, rfl, readsName⟩
    obtain ⟨rfl, identifier⟩ := readName_eq_ok_iff.mp readsName
    have fits : size.numeral.value < 2 ^ 127 := by
      rw [← counted]
      exact Nat.lt_of_le_of_lt count.le (by decide)
    obtain rfl := known.mpr ⟨fits, size.value_eq_val_iff.mpr ⟨unsigned, counted⟩⟩
    exact .asked (.inline identifier)

/-- It asks for nothing if it is zero, with a sign or without. -/
theorem request?_eq_nothing_iff :
    (Occurrence.tagged declaration [size.argument]).request? .inline = .ok none ↔
      size.numeral.value = 0 := by
  have known {value : Int} := @size.argument_eq_integer_iff value
  generalize size.argument = argument at known
  rw [answer_iff]
  constructor
  · intro answer
    cases answer with
    | asked rule =>
      cases rule with
      | disabled count zero =>
        have same := (known.mp (Option.some.inj zero)).2
        exact size.value_eq_zero_iff.mp same.symm
  · intro zero
    have fits : size.numeral.value < 2 ^ 127 := by
      rw [zero]
      decide
    obtain rfl := known.mpr ⟨fits, (size.value_eq_zero_iff.mpr zero).symm⟩
    exact .asked (.disabled rfl rfl)

/-- It is reported with its number and sign if it is no number of slots. -/
theorem request?_eq_outside_iff (value : Int) :
    (Occurrence.tagged declaration [size.argument]).request? .inline =
        .error ⟨declaration, tagName, .sizeOutOfRange value⟩ ↔
      value = size.value ∧ size.numeral.value < 2 ^ 127 ∧ (value < 0 ∨ 255 < value) := by
  have known := @size.argument_eq_integer_iff value
  generalize size.argument = argument at known
  rw [answer_iff]
  constructor
  · intro answer
    cases answer with
    | faulty rule =>
      cases rule with
      | sizeOutside count given outside =>
        obtain ⟨fits, same⟩ := known.mp (Option.some.inj given)
        exact ⟨same, fits, outside⟩
  · rintro ⟨same, fits, outside⟩
    obtain rfl := known.mpr ⟨fits, same⟩
    exact .faulty (.sizeOutside rfl rfl outside)

/-- It is no size at all if no argument can hold the number. -/
theorem request?_eq_mistyped_iff :
    (Occurrence.tagged declaration [size.argument]).request? .inline =
        .error ⟨declaration, tagName, .typeMismatch 0 .integer .other⟩ ↔
      2 ^ 127 ≤ size.numeral.value := by
  have beyond := size.kind_argument_eq_other_iff
  generalize size.argument = argument at beyond
  rw [answer_iff]
  constructor
  · intro answer
    -- The rule names the kind of an argument, so the fault is told apart by its parts.
    generalize expected : SchemaFault.typeMismatch 0 .integer .other = fault at answer
    cases answer with
    | faulty rule =>
      cases rule with
      | sizeMistyped count given other =>
        obtain ⟨-, -, isOther⟩ := SchemaFault.typeMismatch.inj expected
        exact beyond.mp (Option.some.inj given ▸ isOther.symm)
      | _ => cases expected
  · intro large
    have isOther := beyond.mpr large
    have rule := @Verdict.sizeMistyped declaration .inline [argument] argument rfl rfl
      (by rw [isOther]; decide)
    rw [isOther] at rule
    exact .faulty rule

end Answers

end WrittenSize

/-- However a size is written, it is read as one argument: its number, if 128 bits hold it, and else what
was printed. It asks for a container of as many slots exactly if the number is one of slots, for nothing
exactly if it is zero, and is reported with its own number and sign exactly if it is any other integer. So
no number is taken for another one. -/
theorem written_size_is_exact (declaration : String) (size : WrittenSize) :
    (∃ trees, tokensOf size.text = .ok trees ∧
      readTagged declaration trees = .ok (.tagged declaration [size.argument])) ∧
    (∀ request, (Occurrence.tagged declaration [size.argument]).request? .inline = .ok (some request) ↔
      size.negated = false ∧ request.size.val = size.numeral.value ∧ request.home = .root ∧
        readName declaration = .ok request.name) ∧
    ((Occurrence.tagged declaration [size.argument]).request? .inline = .ok none ↔
      size.numeral.value = 0) ∧
    (∀ value, (Occurrence.tagged declaration [size.argument]).request? .inline =
        .error ⟨declaration, tagName, .sizeOutOfRange value⟩ ↔
      value = size.value ∧ size.numeral.value < 2 ^ 127 ∧ (value < 0 ∨ 255 < value)) ∧
    ((Occurrence.tagged declaration [size.argument]).request? .inline =
        .error ⟨declaration, tagName, .typeMismatch 0 .integer .other⟩ ↔ 2 ^ 127 ≤ size.numeral.value) := by
  obtain ⟨trees, expr, lexed, read, same⟩ := size.exists_expr
  have reads : readTagged declaration trees = .ok (.tagged declaration [size.argument]) := by
    rw [readTagged, exprsOf, read, ← same]
    rfl
  exact ⟨⟨trees, lexed, reads⟩, size.request?_eq_some_iff declaration,
    size.request?_eq_nothing_iff declaration, size.request?_eq_outside_iff declaration,
    size.request?_eq_mistyped_iff declaration⟩

end SlotArray
