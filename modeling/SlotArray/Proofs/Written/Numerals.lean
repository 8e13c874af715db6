import Mathlib.Data.Nat.Digits.Defs
import SlotArray.Proofs.Written.Literals
import SlotArray.Source.LiteralValue

/-! Whole numbers as they are written: in four bases, with zeros in front, with letters of either case,
and with underscores anywhere among the digits. However a number is written, all of it is one literal,
and the literal means the number. -/
namespace SlotArray.Source
open SlotArray.Text

/-! ## Digits -/

/-- How a whole number is written. -/
inductive Radix where
  | binary
  | octal
  | decimal
  | hexadecimal
deriving DecidableEq, Repr

namespace Radix

def base : Radix → Nat
  | .binary => 2
  | .octal => 8
  | .decimal => 10
  | .hexadecimal => 16

/-- What stands in front of the digits. -/
def mark : Radix → List Char
  | .binary => ['0', 'b']
  | .octal => ['0', 'o']
  | .decimal => []
  | .hexadecimal => ['0', 'x']

theorem base_le (radix : Radix) : radix.base ≤ 16 := by
  cases radix <;> decide

end Radix

/-- A digit in a base. Those above nine are letters, small or large. -/
structure Digit (base : Nat) where
  value : Fin base
  large : Bool
deriving DecidableEq, Repr

namespace Digit
variable {base : Nat}

/-- How the digit is written. -/
def char (digit : Digit base) : Char :=
  if digit.large then (Nat.digitChar digit.value).toUpper else Nat.digitChar digit.value

/-- What is known of all digits at once, there being so few. -/
private theorem forall_char {p : Nat → Char → Prop} (few : base ≤ 16)
    (all : ∀ value < 16, p value (Nat.digitChar value) ∧ p value (Nat.digitChar value).toUpper)
    (digit : Digit base) : p digit.value digit.char := by
  have both := all digit.value (Nat.lt_of_lt_of_le digit.value.isLt few)
  unfold char
  split
  · exact both.2
  · exact both.1

variable (few : base ≤ 16) (digit : Digit base)
include few

theorem hexDigit?_char : hexDigit? digit.char = some digit.value.val :=
  forall_char (p := fun value c => hexDigit? c = some value) few (by decide) digit

theorem char_ne_underscore : digit.char ≠ '_' :=
  forall_char (p := fun _ c => c ≠ '_') few (by decide) digit

/-- A digit that is no letter is counted from zero. -/
theorem toNat_char : digit.char.isDigit = true → digit.char.toNat - '0'.toNat = digit.value.val :=
  forall_char (p := fun value c => c.isDigit = true → c.toNat - '0'.toNat = value) few (by decide) digit

/-- The digits below ten are no letters. -/
theorem isDigit_char : digit.value.val < 10 → digit.char.isDigit = true :=
  forall_char (p := fun value c => value < 10 → c.isDigit = true) few (by decide) digit

end Digit

/-! ## Numerals -/

/-- A whole number as it is written. Underscores may stand behind every digit, and in front of the first
one as well if a mark tells the base. -/
structure Numeral where
  radix : Radix
  /-- The number of underscores in front of the first digit. -/
  leading : Nat
  /-- The first digit, and the number of underscores behind it. -/
  first : Digit radix.base × Nat
  others : List (Digit radix.base × Nat)
  begins : radix = .decimal → leading = 0

/-- Digits with the underscores behind them. -/
def digitsText {base : Nat} (digits : List (Digit base × Nat)) : List Char :=
  digits.flatMap fun place => place.1.char :: List.replicate place.2 '_'

namespace Numeral

/-- What stands behind the mark. -/
def body (numeral : Numeral) : List Char :=
  List.replicate numeral.leading '_' ++ digitsText (numeral.first :: numeral.others)

def text (numeral : Numeral) : List Char := numeral.radix.mark ++ numeral.body

/-- The number that is written. The last digit counts least. -/
def value (numeral : Numeral) : Nat :=
  Nat.ofDigits numeral.radix.base ((numeral.first :: numeral.others).map (·.1.value.val)).reverse

end Numeral

section Reading
variable {base : Nat}

/-! ### What they mean -/

theorem readDigits_underscores (number count : Nat) (text : List Char) :
    readDigits base number (List.replicate count '_' ++ text) = readDigits base number text := by
  induction count with
  | zero => rfl
  | succ count ih =>
    rw [List.replicate_succ, List.cons_append, readDigits]
    exact ih

/-- A digit is added to those in front of it. -/
theorem readDigits_char (few : base ≤ 16) (digit : Digit base) (number : Nat) (text : List Char) :
    readDigits base number (digit.char :: text) = readDigits base (number * base + digit.value) text := by
  have plain : (decide (base = 10) && (decide (digit.char = '.') ||
      ((decide (digit.char = 'e') || decide (digit.char = 'E')) && isExponent text))) = false := by
    by_cases decimal : base = 10
    · have isDigit := digit.isDigit_char few (by have := digit.value.isLt; omega)
      have other {c : Char} (noDigit : c.isDigit = false) : decide (digit.char = c) = false :=
        decide_eq_false fun same => by rw [← same, isDigit] at noDigit; cases noDigit
      simp only [other (c := '.') (by decide), other (c := 'e') (by decide), other (c := 'E') (by decide),
        Bool.or_self, Bool.false_and, Bool.and_false]
    · rw [decide_eq_false decimal, Bool.false_and]
  rw [readDigits, plain, digit.hexDigit?_char few]
  · simp only [Bool.false_eq_true, if_false, digit.value.isLt, if_true]
  · exact digit.char_ne_underscore few

theorem readDigits_digitsText (few : base ≤ 16) (digits : List (Digit base × Nat)) (number : Nat) :
    readDigits base number (digitsText digits) =
      some (digits.foldl (fun number place => number * base + place.1.value) number, []) := by
  induction digits generalizing number with
  | nil => rfl
  | cons place digits ih =>
    rw [digitsText, List.flatMap_cons, List.cons_append, readDigits_char few, readDigits_underscores]
    exact ih _

/-- So the first digit counts most. -/
theorem foldl_digits (digits : List (Digit base × Nat)) :
    digits.foldl (fun number place => number * base + place.1.value.val) 0 =
      Nat.ofDigits base (digits.map (·.1.value.val)).reverse := by
  rw [Nat.ofDigits_eq_foldr, List.foldr_reverse, List.foldl_map]
  refine congrArg (fun step => digits.foldl step 0) ?_
  funext number place
  rw [Nat.cast_id, Nat.mul_comm, Nat.add_comm]

end Reading

namespace Numeral
variable (numeral : Numeral)

theorem readDigits_body : readDigits numeral.radix.base 0 numeral.body = some (numeral.value, []) := by
  rw [body, readDigits_underscores, readDigits_digitsText numeral.radix.base_le, foldl_digits]
  rfl

/-! ### How they begin -/

theorem exists_body_eq : ∃ count rest, numeral.body =
    List.replicate count '_' ++ numeral.first.1.char :: rest ∧ (numeral.radix = .decimal → count = 0) :=
  ⟨numeral.leading, _, rfl, numeral.begins⟩

/-- Underscores and digits of the base are all there is behind the mark. -/
theorem forall_mem_body {p : Char → Prop} (underscore : p '_')
    (digits : ∀ digit : Digit numeral.radix.base, p digit.char) : ∀ c ∈ numeral.body, p c := by
  have low : ∀ {count : Nat}, ∀ c ∈ List.replicate count '_', p c := by
    intro count c mem
    rwa [List.eq_of_mem_replicate mem]
  intro c mem
  rw [body, List.mem_append] at mem
  rcases mem with mem | mem
  · exact low c mem
  · obtain ⟨place, -, mem⟩ := List.mem_flatMap.mp mem
    rcases List.mem_cons.mp mem with rfl | mem
    · exact digits place.1
    · exact low c mem

/-- In the decimal base a digit comes first, and only digits and underscores follow. -/
theorem isDigits_body (decimal : numeral.radix = .decimal) : IsDigits numeral.body := by
  have isDigit (digit : Digit numeral.radix.base) : digit.char.isDigit = true := by
    have ten : numeral.radix.base = 10 := congrArg Radix.base decimal
    exact digit.isDigit_char numeral.radix.base_le (Nat.lt_of_lt_of_eq digit.value.isLt ten)
  obtain ⟨count, rest, same, begins⟩ := numeral.exists_body_eq
  rw [begins decimal] at same
  refine ⟨⟨_, rest, same, isDigit _⟩, numeral.forall_mem_body (by decide) fun digit => ?_⟩
  rw [isDigitOrUnderscore, isDigit digit, Bool.true_or]

/-- A numeral begins with a digit, even where a mark comes first. -/
theorem exists_text_eq : ∃ c rest, numeral.text = c :: rest ∧ c.isDigit = true := by
  cases radix : numeral.radix with
  | decimal =>
    obtain ⟨⟨c, rest, same, digit⟩, -⟩ := numeral.isDigits_body radix
    exact ⟨c, rest, by rw [text, radix, same]; rfl, digit⟩
  | _ => exact ⟨'0', _, by rw [text, radix]; rfl, by decide⟩

end Numeral

/-- A text that goes on with no number in front of it: neither with another character of it, nor with a
suffix, nor with a fraction. -/
def EndsNumber (tail : List Char) : Prop := ∀ c ∈ tail.head?, isIdentContinue c = false ∧ c ≠ '.'

namespace Numeral
variable (numeral : Numeral)

section Ends
variable {tail : List Char} (ends : EndsNumber tail)
include ends

/-- A decimal number has no mark of another base. -/
theorem ne_marked (decimal : numeral.radix = .decimal) {letter : Char} (noDigit : letter.isDigit = false)
    (other : letter ≠ '_') (continues : isIdentContinue letter = true) (more : List Char) :
    numeral.body ++ tail ≠ '0' :: letter :: more := by
  obtain ⟨⟨first, rest, same, -⟩, inner⟩ := numeral.isDigits_body decimal
  rw [same] at inner ⊢
  intro marked
  have second : rest ++ tail = letter :: more := (List.cons.inj marked).2
  cases rest with
  | nil =>
    rw [List.nil_append] at second
    rw [(ends letter (by rw [second]; rfl)).1] at continues
    cases continues
  | cons d rest =>
    obtain rfl := (List.cons.inj second).1
    have known := inner d (List.mem_cons_of_mem _ List.mem_cons_self)
    rw [isDigitOrUnderscore, noDigit, Bool.false_or, beq_iff_eq] at known
    exact other known

theorem wholeLength_text : wholeLength (numeral.text ++ tail) =
    (radixLength numeral.radix.base (numeral.body ++ tail)).map (· + numeral.radix.mark.length) := by
  rw [text, List.append_assoc]
  cases radix : numeral.radix with
  | decimal =>
    rw [Radix.mark, List.nil_append]
    unfold wholeLength
    split
    · rename_i same
      exact absurd same (numeral.ne_marked ends radix (by decide) (by decide) (by decide) _)
    · rename_i same
      exact absurd same (numeral.ne_marked ends radix (by decide) (by decide) (by decide) _)
    · rename_i same
      exact absurd same (numeral.ne_marked ends radix (by decide) (by decide) (by decide) _)
    · exact Option.map_id'.symm
  | _ => rfl

end Ends

theorem splitBase_text : splitBase numeral.text = (numeral.radix.base, numeral.body) := by
  have ends : EndsNumber [] := fun _ mem => absurd mem (Option.not_mem_none _)
  rw [text]
  cases radix : numeral.radix with
  | decimal =>
    rw [Radix.mark, List.nil_append]
    unfold splitBase
    have apart := fun {letter : Char} => @numeral.ne_marked [] ends radix letter
    rw [List.append_nil] at apart
    split
    · rename_i same
      exact absurd same (apart (by decide) (by decide) (by decide) _)
    · rename_i same
      exact absurd same (apart (by decide) (by decide) (by decide) _)
    · rename_i same
      exact absurd same (apart (by decide) (by decide) (by decide) _)
    · rfl
  | _ => rfl

/-- A numeral means its number. -/
theorem ofText_text : LiteralValue.ofText (String.ofList numeral.text) = .integer numeral.value := by
  obtain ⟨c, rest, same, digit⟩ := numeral.exists_text_eq
  have other {d : Char} (noDigit : d.isDigit = false) : c ≠ d := fun same => by
    rw [← same, digit] at noDigit
    cases noDigit
  have whole : wholeNumber? numeral.text = some (numeral.value, []) := by
    rw [wholeNumber?, splitBase_text]
    exact numeral.readDigits_body
  have noWord {word : String} (spelled : (word.toList.head?.all fun d => !d.isDigit) = true) :
      String.ofList numeral.text ≠ word := by
    rintro rfl
    rw [String.toList_ofList, same, List.head?_cons, Option.all_some, digit] at spelled
    cases spelled
  rw [LiteralValue.ofText, if_neg (noWord (by decide)), if_neg (noWord (by decide)), String.toList_ofList]
  rw [same] at whole ⊢
  split
  · rename_i quoted
    exact absurd (List.cons.inj quoted).1 (other (by decide))
  · rename_i raw
    exact absurd (List.cons.inj raw).1 (other (by decide))
  · rw [List.head?_cons, Option.any_some, if_pos digit, whole]

/-! ### How far they reach -/

section Ends
variable {tail : List Char} (ends : EndsNumber tail)
include ends

theorem radixLength_body :
    radixLength numeral.radix.base (numeral.body ++ tail) = some numeral.body.length := by
  have few := numeral.radix.base_le
  have taken : (numeral.body ++ tail).takeWhile (isDigitOf numeral.radix.base) = numeral.body := by
    have inner : ∀ c ∈ numeral.body, isDigitOf numeral.radix.base c = true := by
      refine numeral.forall_mem_body rfl fun digit => ?_
      rw [isDigitOf, digit.hexDigit?_char few, Option.any_some, decide_eq_true digit.value.isLt, Bool.or_true]
    have stop : tail.takeWhile (isDigitOf numeral.radix.base) = [] := by
      cases tail with
      | nil => rfl
      | cons d rest =>
        refine List.takeWhile_cons_of_neg fun goesOn => ?_
        have continues := isIdentContinue_of_isDigitOf goesOn
        rw [(ends d rfl).1] at continues
        cases continues
    rw [List.takeWhile_append_of_pos inner, stop, List.append_nil]
  have small : (numeral.body.any fun c => c.isDigit && numeral.radix.base ≤ c.toNat - '0'.toNat) = false := by
    refine List.any_eq_false.mpr (numeral.forall_mem_body (by simp) fun digit => ?_)
    have below := digit.value.isLt
    have counted := digit.toNat_char few
    simp only [Bool.and_eq_true, decide_eq_true_eq, not_and]
    intro isDigit
    rw [counted isDigit]
    omega
  obtain ⟨count, rest, same, begins⟩ := numeral.exists_body_eq
  have proper : (decide (numeral.radix.base = 10) && numeral.body.head? == some '_') = false := by
    by_cases ten : numeral.radix.base = 10
    · have decimal : numeral.radix = .decimal := by
        revert ten
        cases numeral.radix <;> decide
      obtain ⟨⟨first, more, known, digit⟩, -⟩ := numeral.isDigits_body decimal
      have other : first ≠ '_' := by
        rintro rfl
        cases digit
      simp [known, other]
    · rw [decide_eq_false ten, Bool.false_and]
  have filled : numeral.body.any (· != '_') = true := by
    rw [same]
    simp [numeral.first.1.char_ne_underscore few]
  have measured : radixLength numeral.radix.base (numeral.body ++ tail) =
      let digits := (numeral.body ++ tail).takeWhile (isDigitOf numeral.radix.base)
      if digits.any fun c => c.isDigit && numeral.radix.base ≤ c.toNat - '0'.toNat then none
      else if numeral.radix.base = 10 && digits.head? == some '_' then none
      else if digits.any (· != '_') then some digits.length
      else none := rfl
  rw [measured, taken]
  simp only [small, proper, filled, Bool.false_eq_true, if_false, if_true]

theorem fractionalLength_text : fractionalLength (numeral.text ++ tail) = none := by
  have marked {letter : Char} (noDigit : isDigitOrUnderscore letter = false)
      (plain : letter ≠ '.' ∧ letter ≠ 'e' ∧ letter ≠ 'E') (more : List Char) :
      fractionalLength ('0' :: letter :: more) = none := by
    have zero : IsDigits ['0'] := ⟨⟨'0', [], rfl, by decide⟩, List.forall_mem_singleton.mpr (by decide)⟩
    refine fractionalLength_eq_none zero (List.takeWhile_cons_of_neg ?_) fun c mem => ?_
    · rw [noDigit]
      exact Bool.false_ne_true
    · obtain rfl : letter = c := Option.some.inj mem
      exact plain
  rw [text, List.append_assoc]
  cases radix : numeral.radix with
  | decimal =>
    rw [Radix.mark, List.nil_append]
    have free : ∀ c ∈ tail.head?, ∀ {d : Char}, isIdentContinue d = true → c ≠ d := by
      rintro c mem d continues rfl
      rw [(ends c mem).1] at continues
      cases continues
    refine fractionalLength_eq_none (numeral.isDigits_body radix) ?_ fun c mem => ?_
    · cases tail with
      | nil => rfl
      | cons d rest =>
        refine List.takeWhile_cons_of_neg fun goesOn => ?_
        have continues := @isIdentContinue_of_isDigitOf 10 d <| by
          rw [isDigitOf]
          rw [isDigitOrUnderscore, Bool.or_comm] at goesOn
          rw [goesOn, Bool.true_or]
        exact free d rfl continues rfl
    · exact ⟨(ends c mem).2, free c mem (by decide), free c mem (by decide)⟩
  | _ => exact marked (by decide) (by decide) _

/-- All of a numeral is one literal. -/
theorem literalLength_text : literalLength (numeral.text ++ tail) = some numeral.text.length := by
  have whole : wholeLength (numeral.text ++ tail) = some numeral.text.length := by
    rw [numeral.wholeLength_text ends, numeral.radixLength_body ends, Option.map_some, text,
      List.length_append, Nat.add_comm]
  have noSuffix : wordLength tail = none := by
    cases tail with
    | nil => rfl
    | cons d rest =>
      rw [wordLength, if_neg]
      intro start
      have continues := isIdentContinue_of_isIdentStart start
      rw [(ends d rfl).1] at continues
      cases continues
  have left : (numeral.text ++ tail).drop numeral.text.length = tail := List.drop_left' rfl
  have suffixless : withSuffix (numeral.text ++ tail) numeral.text.length = numeral.text.length := by
    rw [withSuffix, left, suffixLength, noSuffix]
    rfl
  have number : numberLength (numeral.text ++ tail) numeral.text.length = some numeral.text.length := by
    unfold numberLength
    simp only [suffixless, left]
    cases tail with
    | nil => rfl
    | cons d rest => simp only [(ends d rfl).1, Bool.false_eq_true, if_false]
  have quoted : quotedLiteralLength (numeral.text ++ tail) = none := by
    obtain ⟨c, rest, same, digit⟩ := numeral.exists_text_eq
    rw [same]
    exact quotedLiteralLength_of_isDigit digit _
  rw [literalLength, quoted]
  simp only [numeral.fractionalLength_text ends, whole, Option.bind_none, Option.bind_some, number]

/-- So it is read as one token. -/
theorem tokens?_text : tokens? (numeral.text ++ tail) =
    (tokens? tail).map ([.leaf (.literal (String.ofList numeral.text))] ++ ·) := by
  have measured := numeral.literalLength_text ends
  obtain ⟨c, rest, same, digit⟩ := numeral.exists_text_eq
  have continues : isIdentContinue c = true :=
    isIdentContinue_of_digits (fun _ mem => by rwa [List.mem_singleton.mp mem]) c (List.mem_singleton_self c)
  have found : piece? (numeral.text ++ tail) = some (.literal, numeral.text.length) := by
    rw [same, List.cons_append] at measured ⊢
    rw [piece?_eq_lexeme? continues]
    unfold lexeme?
    rw [measured]
  have filled : numeral.text ≠ [] := by
    rw [same]
    exact List.cons_ne_nil _ _
  exact tokens?_append_of_piece? _ found filled rfl

end Ends

end Numeral
end SlotArray.Source
