import SlotArray.Proofs.Written.Quoted

/-! How far a literal reaches when it is written again. A number carries no end of its own, but whatever
stood behind it in its source did not belong to it, and a blank, a closing bracket or a comma belongs to
no number: it reaches as far in front of one of these. -/
namespace SlotArray.Source
open SlotArray.Text

/-! ## Numbers -/

/-- The characters that stand behind a literal when it is written. -/
def isPause (c : Char) : Bool := [' ', '\n', ')', ']', ','].contains c

theorem mem_of_isPause {d : Char} (pause : isPause d = true) : d ∈ [' ', '\n', ')', ']', ','] :=
  List.contains_iff_mem.mp pause

theorem isBreak_of_isPause {d : Char} (pause : isPause d = true) : isBreak d = true := by
  have breaks : ([' ', '\n', ')', ']', ','].all isBreak) = true := by decide
  exact List.all_eq_true.mp breaks d (mem_of_isPause pause)

/-- Whether no pause passes a test. -/
def failsPauses (test : Char → Bool) : Bool := [' ', '\n', ')', ']', ','].all fun c => !test c

private theorem failsPauses_isIdentContinue : failsPauses isIdentContinue = true := by decide

private theorem failsPauses_isDigitOrUnderscore : failsPauses isDigitOrUnderscore = true := by decide

private theorem failsPauses_underscore : failsPauses (· == '_') = true := by decide

private theorem eq_false_of_isPause {test : Char → Bool} {d : Char} (pause : isPause d = true)
    (none : failsPauses test = true) : test d = false := by
  simpa using List.all_eq_true.mp none d (mem_of_isPause pause)

private theorem ne_of_isPause {c d : Char} (pause : isPause d = true) (other : isPause c = false) : d ≠ c := by
  rintro rfl
  rw [pause] at other
  cases other

/-- The length of the sign of an exponent. -/
private def signLength : List Char → Nat
  | '+' :: _ => 1
  | '-' :: _ => 1
  | _ => 0

private theorem signLength_cons (c : Char) (rest more : List Char) :
    signLength (c :: rest) = signLength (c :: more) := by
  by_cases plus : c = '+'
  · rw [plus]; rfl
  · by_cases minus : c = '-'
    · rw [minus]; rfl
    · simp [signLength, plus, minus]

/-- The digits of a number, which may be spaced out behind the first. -/
def IsDigits (digits : List Char) : Prop :=
  (∃ first more, digits = first :: more ∧ first.isDigit = true) ∧
    ∀ c ∈ digits, isDigitOrUnderscore c = true

/-- Whether what follows a point keeps it from being one of a number. -/
private def blocksPoint (after : List Char) : Bool :=
  match after with
  | next :: _ => next == '.' || isIdentStart next
  | [] => false

/-- The length of the exponent behind a fraction, if there is one. -/
private def exponentPart : List Char → Nat
  | 'e' :: rest => ((exponentLength rest).map (· + 1)).getD 0
  | 'E' :: rest => ((exponentLength rest).map (· + 1)).getD 0
  | _ => 0

private theorem exponentPart_eq_zero {text : List Char} (noSmall : ∀ rest, text ≠ 'e' :: rest)
    (noLarge : ∀ rest, text ≠ 'E' :: rest) : exponentPart text = 0 := by
  unfold exponentPart
  split
  · exact absurd rfl (noSmall _)
  · exact absurd rfl (noLarge _)
  · rfl

/-- A text that begins with a number with a point or an exponent, and the length of that. -/
private inductive Fractional : List Char → Nat → Prop where
  | point {digits fraction tail : List Char} (number : IsDigits digits)
      (inner : ∀ c ∈ fraction, isDigitOrUnderscore c = true)
      (ends : tail.takeWhile isDigitOrUnderscore = []) (free : blocksPoint (fraction ++ tail) = false) :
      Fractional (digits ++ '.' :: (fraction ++ tail)) (digits.length + 1 + fraction.length + exponentPart tail)
  | exponent {digits tail : List Char} {letter : Char} {length : Nat} (number : IsDigits digits)
      (isLetter : letter = 'e' ∨ letter = 'E') (measured : exponentLength tail = some length) :
      Fractional (digits ++ letter :: tail) (length + (digits.length + 1))

private theorem digitsLength_append {digits rest : List Char}
    (inner : ∀ c ∈ digits, isDigitOrUnderscore c = true) (ends : rest.takeWhile isDigitOrUnderscore = []) :
    digitsLength (digits ++ rest) = digits.length := by
  rw [digitsLength, List.takeWhile_append_of_pos inner, ends, List.append_nil]

/-- The digits of a text, and what stands behind them. -/
private theorem exists_digits (text : List Char) : ∃ digits rest, text = digits ++ rest ∧
    (∀ c ∈ digits, isDigitOrUnderscore c = true) ∧ rest.takeWhile isDigitOrUnderscore = [] := by
  refine ⟨text.takeWhile isDigitOrUnderscore, text.dropWhile isDigitOrUnderscore,
    List.takeWhile_append_dropWhile.symm, fun c mem => List.all_eq_true.mp List.all_takeWhile c mem, ?_⟩
  cases rest : text.dropWhile isDigitOrUnderscore with
  | nil => rfl
  | cons c rest =>
    have other := List.head_dropWhile_not isDigitOrUnderscore (l := text) (by rw [rest]; exact List.cons_ne_nil _ _)
    simp only [rest, List.head_cons] at other
    exact List.takeWhile_cons_of_neg (by rw [other]; exact Bool.false_ne_true)

/-- The length of a number with a point or an exponent, from what stands behind its digits. -/
private def lengthBehind (digits : Nat) : List Char → Option Nat
  | '.' :: after =>
    if blocksPoint after then none
    else some (digits + 1 + digitsLength after + exponentPart (after.drop (digitsLength after)))
  | 'e' :: rest => (exponentLength rest).map (· + (digits + 1))
  | 'E' :: rest => (exponentLength rest).map (· + (digits + 1))
  | _ => none

private theorem fractionalLength_append {digits rest : List Char} (number : IsDigits digits)
    (ends : rest.takeWhile isDigitOrUnderscore = []) :
    fractionalLength (digits ++ rest) = lengthBehind digits.length rest := by
  obtain ⟨⟨first, more, rfl, digit⟩, inner⟩ := number
  have whole := digitsLength_append inner ends
  rw [List.cons_append] at whole ⊢
  unfold fractionalLength
  simp only [digit, Bool.not_true, Bool.false_eq_true, if_false, whole]
  rw [← List.cons_append, List.drop_left]
  split
  · rename_i after
    have mantissa : ((first :: more) ++ '.' :: after).drop ((first :: more).length + 1 + digitsLength after) =
        after.drop (digitsLength after) := by
      rw [Nat.add_assoc, List.drop_append]
      simp [Nat.add_comm 1]
    rw [mantissa, lengthBehind]
    refine ite_congr rfl (fun _ => rfl) fun _ => ?_
    generalize after.drop (digitsLength after) = tail
    split
    · rfl
    · rfl
    · rename_i noSmall noLarge
      rw [exponentPart_eq_zero noSmall noLarge]
      rfl
  · rfl
  · rfl
  · rename_i noPoint noSmall noLarge
    unfold lengthBehind
    split
    · exact absurd rfl (noPoint _)
    · exact absurd rfl (noSmall _)
    · exact absurd rfl (noLarge _)
    · rfl

/-- Digits make no fraction if neither a point nor an exponent follows. -/
theorem fractionalLength_eq_none {digits rest : List Char} (number : IsDigits digits)
    (ends : rest.takeWhile isDigitOrUnderscore = [])
    (plain : ∀ c ∈ rest.head?, c ≠ '.' ∧ c ≠ 'e' ∧ c ≠ 'E') : fractionalLength (digits ++ rest) = none := by
  rw [fractionalLength_append number ends]
  unfold lengthBehind
  split
  · exact absurd rfl (plain '.' rfl).1
  · exact absurd rfl (plain 'e' rfl).2.1
  · exact absurd rfl (plain 'E' rfl).2.2
  · rfl

private theorem fractionalLength_eq_some_iff {text : List Char} {length : Nat} :
    fractionalLength text = some length ↔ Fractional text length := by
  constructor
  · intro measured
    obtain ⟨digits, rest, rfl, inner, ends⟩ := exists_digits text
    have number : IsDigits digits := by
      refine ⟨?_, inner⟩
      unfold fractionalLength at measured
      split at measured
      · cases measured
      · rename_i first others same
        split at measured
        · cases measured
        · rename_i digit
          rw [Bool.not_eq_true, Bool.not_eq_false'] at digit
          cases digits with
          | nil =>
            have stays : isDigitOrUnderscore first = true := by rw [isDigitOrUnderscore, digit, Bool.true_or]
            rw [← List.nil_append rest, same, List.takeWhile_cons_of_pos stays] at ends
            cases ends
          | cons c digits => exact ⟨c, digits, rfl, by rw [(List.cons.inj same).1]; exact digit⟩
    rw [fractionalLength_append number ends] at measured
    unfold lengthBehind at measured
    split at measured
    · rename_i after
      rw [Option.ite_none_left_eq_some, Option.some.injEq, Bool.not_eq_true] at measured
      obtain ⟨free, rfl⟩ := measured
      obtain ⟨fraction, tail, rfl, innerFraction, endsFraction⟩ := exists_digits after
      rw [digitsLength_append innerFraction endsFraction, List.drop_left]
      exact .point number innerFraction endsFraction free
    · obtain ⟨exponent, known, rfl⟩ := Option.map_eq_some_iff.mp measured
      exact .exponent number (.inl rfl) known
    · obtain ⟨exponent, known, rfl⟩ := Option.map_eq_some_iff.mp measured
      exact .exponent number (.inr rfl) known
    · cases measured
  · rintro (⟨number, inner, ends, free⟩ | ⟨number, rfl | rfl, measured⟩)
    · rw [fractionalLength_append number rfl, lengthBehind, free, digitsLength_append inner ends,
        List.drop_left]
      rfl
    · rw [fractionalLength_append number rfl, lengthBehind, measured]
      rfl
    · rw [fractionalLength_append number rfl, lengthBehind, measured]
      rfl

section Numbers
variable {lit rest more : List Char} {d : Char} (pause : isPause d = true)

/-- Characters of one kind that do not reach beyond a text are those at its beginning. -/
private theorem takeWhile_within {test : Char → Bool}
    (within : ((lit ++ rest).takeWhile test).length ≤ lit.length) :
    (lit ++ rest).takeWhile test = lit.takeWhile test := by
  rw [List.takeWhile_append] at within ⊢
  split
  · rename_i all
    rw [if_pos all, List.length_append] at within
    have nothing : rest.takeWhile test = [] := List.eq_nil_of_length_eq_zero (by omega)
    have whole : lit.takeWhile test = lit :=
      (List.takeWhile_prefix test).eq_of_length all
    rw [nothing, List.append_nil, whole]
  · rfl

/-- A word that reaches as far as a text is all of it. -/
private theorem isIdentContinue_of_wordLength (spelled : (wordLength (lit ++ rest)).getD 0 = lit.length) :
    ∀ c ∈ lit, isIdentContinue c = true := by
  cases lit with
  | nil => exact List.forall_mem_nil _
  | cons first letters =>
    rw [List.cons_append, wordLength] at spelled
    split at spelled
    · rename_i start
      rw [Option.getD_some, List.length_cons] at spelled
      rw [takeWhile_within (by omega)] at spelled
      have whole : letters.takeWhile isIdentContinue = letters :=
        (List.takeWhile_prefix _).eq_of_length (by omega)
      intro c mem
      rcases List.mem_cons.mp mem with rfl | mem
      · exact isIdentContinue_of_isIdentStart start
      · exact List.all_eq_true.mp List.all_takeWhile c (by rwa [whole])
    · cases spelled

include pause

private theorem takeWhile_pause {test : Char → Bool} (none : failsPauses test = true) (lit more : List Char) :
    (lit ++ d :: more).takeWhile test = lit.takeWhile test := by
  rw [List.takeWhile_append]
  split
  · rename_i all
    have whole : lit.takeWhile test = lit := (List.takeWhile_prefix test).eq_of_length all
    rw [List.takeWhile_cons_of_neg (by simp [eq_false_of_isPause pause none]), List.append_nil, whole]
  · rfl

private theorem wordLength_pause (lit more : List Char) (spelled : (wordLength (lit ++ rest)).getD 0 = lit.length) :
    (wordLength (lit ++ d :: more)).getD 0 = lit.length := by
  cases lit with
  | nil => rw [List.nil_append, wordLength_break (isBreak_of_isPause pause)]; rfl
  | cons first letters =>
    rw [List.cons_append, wordLength] at spelled ⊢
    split at spelled
    · rename_i start
      rw [Option.getD_some, List.length_cons] at spelled
      rw [if_pos start, takeWhile_pause pause failsPauses_isIdentContinue]
      rw [takeWhile_within (by omega)] at spelled
      rw [Option.getD_some, spelled, List.length_cons]
    · cases spelled

omit pause in
private theorem withSuffix_of_numberLength {text : List Char} {body length : Nat}
    (measured : numberLength text body = some length) : withSuffix text body = length := by
  unfold numberLength at measured
  simp only at measured
  split at measured
  · split at measured
    · cases measured
    · exact Option.some.inj measured
  · exact Option.some.inj measured

omit pause in
private theorem le_of_numberLength {text : List Char} {body length : Nat}
    (measured : numberLength text body = some length) : body ≤ length := by
  rw [← withSuffix_of_numberLength measured]
  exact Nat.le_add_right _ _

/-- A number with its suffix ends in front of a pause as it did in its source. -/
private theorem numberLength_pause {body : Nat}
    (measured : numberLength (lit ++ rest) body = some lit.length) (more : List Char) :
    numberLength (lit ++ d :: more) body = some lit.length := by
  have length := withSuffix_of_numberLength measured
  have again : withSuffix (lit ++ d :: more) body = lit.length := by
    unfold withSuffix suffixLength at length ⊢
    have inside : body ≤ lit.length := by omega
    rw [List.drop_append_of_le_length inside] at length ⊢
    have counted : (lit.drop body).length = lit.length - body := List.length_drop
    rw [@wordLength_pause rest d pause (lit.drop body) more (by omega)]
    omega
  unfold numberLength
  simp only [again, List.drop_left]
  rw [(isBreak_iff (isBreak_of_isPause pause)).1]
  rfl

omit pause in
private theorem exponentLength_eq_some_iff {text : List Char} {length : Nat} :
    exponentLength text = some length ↔
      ∃ low sign digits, low = (text.takeWhile (· == '_')).length ∧
        sign = low + signLength (text.drop low) ∧
        digits = (text.drop sign).takeWhile isDigitOrUnderscore ∧
        digits.any Char.isDigit = true ∧ length = sign + digits.length := by
  have whole : exponentLength text =
      let low := (text.takeWhile (· == '_')).length
      let sign := low + signLength (text.drop low)
      let digits := (text.drop sign).takeWhile isDigitOrUnderscore
      if digits.any Char.isDigit then some (sign + digits.length) else none := by
    unfold exponentLength
    simp only
    split <;> rename_i same <;> simp [signLength, same]
  rw [whole]
  simp only [Option.ite_none_right_eq_some, Option.some.injEq]
  constructor
  · rintro ⟨digit, rfl⟩
    exact ⟨_, _, _, rfl, rfl, rfl, digit, rfl⟩
  · rintro ⟨_, _, _, rfl, rfl, rfl, digit, rfl⟩
    exact ⟨digit, rfl⟩

/-- An exponent that a number holds is read again. -/
private theorem exponentLength_pause {length : Nat} (measured : exponentLength (lit ++ rest) = some length)
    (inside : length ≤ lit.length) (more : List Char) : exponentLength (lit ++ d :: more) = some length := by
  obtain ⟨low, sign, digits, lowSame, signSame, digitsSame, digit, rfl⟩ :=
    exponentLength_eq_some_iff.mp measured
  have filled : 0 < digits.length := by
    cases digits with
    | nil => cases digit
    | cons => exact Nat.zero_lt_succ _
  rw [takeWhile_within (by omega)] at lowSame
  rw [List.drop_append_of_le_length (by omega)] at signSame digitsSame
  obtain ⟨c, behind, split⟩ := List.exists_cons_of_length_pos (l := lit.drop low) (by
    rw [List.length_drop]
    omega)
  have counted : (lit.drop sign).length = lit.length - sign := List.length_drop
  rw [takeWhile_within (by rw [← digitsSame]; omega)] at digitsSame
  refine exponentLength_eq_some_iff.mpr ⟨low, sign, digits, ?_, ?_, ?_, digit, rfl⟩
  · rw [takeWhile_pause pause failsPauses_underscore, lowSame]
  · rw [split] at signSame
    rw [List.drop_append_of_le_length (by omega), split, signSame]
    exact congrArg _ (signLength_cons c _ _)
  · rw [List.drop_append_of_le_length (by omega), takeWhile_pause pause failsPauses_isDigitOrUnderscore, digitsSame]

/-- Behind letters alone an exponent has no sign, and it does not reach beyond them. -/
private theorem exponentLength_letters {letters : List Char}
    (continues : ∀ c ∈ letters, isIdentContinue c = true) {length : Nat}
    (measured : exponentLength (letters ++ d :: more) = some length) :
    length ≤ letters.length ∧ ∀ rest, ∃ longer, exponentLength (letters ++ rest) = some longer := by
  obtain ⟨low, sign, digits, lowSame, signSame, digitsSame, digit, rfl⟩ :=
    exponentLength_eq_some_iff.mp measured
  rw [takeWhile_pause pause failsPauses_underscore] at lowSame
  have lowLe : low ≤ letters.length := by
    rw [lowSame]
    exact (List.takeWhile_sublist _).length_le
  rw [List.drop_append_of_le_length lowLe] at signSame
  rcases same : letters.drop low with _ | ⟨c, behind⟩
  · -- nothing but underscores: the pause is neither sign nor digit
    rw [same, List.nil_append] at signSame
    have noSign : signLength (d :: more) = 0 := by
      simp [signLength, @ne_of_isPause '+' d pause rfl, @ne_of_isPause '-' d pause rfl]
    rw [noSign, Nat.add_zero] at signSame
    rw [signSame, List.drop_append_of_le_length lowLe, same,
      takeWhile_pause pause failsPauses_isDigitOrUnderscore] at digitsSame
    rw [digitsSame] at digit
    cases digit
  · have letter : isIdentContinue c = true :=
      continues c (List.drop_subset low letters (by rw [same]; exact List.mem_cons_self))
    have noSign : ∀ rest, signLength (c :: rest) = 0 := fun rest => by
      simp [signLength, ne_of_isIdentContinue (d := '+') letter (by decide),
        ne_of_isIdentContinue (d := '-') letter (by decide)]
    rw [same, List.cons_append, noSign, Nat.add_zero] at signSame
    have left : (c :: behind).length = letters.length - low := by rw [← same, List.length_drop]
    rw [signSame, List.drop_append_of_le_length lowLe, same,
      takeWhile_pause pause failsPauses_isDigitOrUnderscore] at digitsSame
    refine ⟨?_, fun rest => ⟨_, exponentLength_eq_some_iff.mpr ⟨low, low, _, ?_, ?_, rfl, ?_, rfl⟩⟩⟩
    · have few : digits.length ≤ (c :: behind).length := by
        rw [digitsSame]
        exact (List.takeWhile_sublist _).length_le
      omega
    · rw [List.length_cons] at left
      rw [List.takeWhile_append, if_neg (by omega), lowSame]
    · rw [List.drop_append_of_le_length lowLe, same, List.cons_append, noSign, Nat.add_zero]
    · rw [List.drop_append_of_le_length lowLe, same, List.takeWhile_append]
      rw [digitsSame] at digit
      split
      · rename_i all
        rw [List.any_append, ← (List.takeWhile_prefix _).eq_of_length all, digit, Bool.true_or]
      · exact digit

omit pause in
/-- Where the beginning of a text reaches, the rest of a longer one follows. -/
theorem exists_inner {front tail : List Char} (same : lit ++ rest = front ++ tail)
    (inside : front.length ≤ lit.length) : ∃ inner, lit = front ++ inner ∧ tail = inner ++ rest := by
  rcases List.append_eq_append_iff.mp same with ⟨inner, whole, other⟩ | ⟨inner, whole, other⟩
  · have counted : front.length = lit.length + inner.length := by rw [whole, List.length_append]
    obtain rfl : inner = [] := List.eq_nil_of_length_eq_zero (by omega)
    exact ⟨[], by rw [whole]; simp, by rw [other]; rfl⟩
  · exact ⟨inner, whole, other⟩

omit pause in
private theorem exponentPart_cons {letter : Char} (isLetter : letter = 'e' ∨ letter = 'E') (rest : List Char) :
    exponentPart (letter :: rest) = ((exponentLength rest).map (· + 1)).getD 0 := by
  rcases isLetter with rfl | rfl <;> rfl

/-- The exponent of a number is read again. One that is missing stays missing if what stands in its
place is the suffix. -/
private theorem exponentPart_pause (inside : exponentPart (lit ++ rest) ≤ lit.length)
    (suffix : exponentPart (lit ++ rest) = 0 → (wordLength (lit ++ rest)).getD 0 = lit.length)
    (more : List Char) : exponentPart (lit ++ d :: more) = exponentPart (lit ++ rest) := by
  rcases lit with _ | ⟨letter, inner⟩
  · have none : exponentPart (d :: more) = 0 := by
      refine exponentPart_eq_zero (fun rest same => ?_) fun rest same => ?_
      · exact (ne_of_isPause pause rfl) (List.cons.inj same).1
      · exact (ne_of_isPause pause rfl) (List.cons.inj same).1
    rw [List.nil_append, none]
    exact (Nat.le_zero.mp inside).symm
  · by_cases isLetter : letter = 'e' ∨ letter = 'E'
    · rw [List.cons_append, exponentPart_cons isLetter, List.length_cons] at inside
      rw [List.cons_append, List.cons_append, exponentPart_cons isLetter, exponentPart_cons isLetter]
      rw [List.cons_append, exponentPart_cons isLetter] at suffix
      cases measured : exponentLength (inner ++ rest) with
      | some length =>
        rw [measured, Option.map_some, Option.getD_some] at inside
        rw [exponentLength_pause pause measured (by omega)]
      | none =>
        have spelled := suffix (by rw [measured]; rfl)
        have letters : ∀ c ∈ inner, isIdentContinue c = true :=
          fun c mem => isIdentContinue_of_wordLength spelled c (List.mem_cons_of_mem _ mem)
        cases again : exponentLength (inner ++ d :: more) with
        | none => rfl
        | some length =>
          obtain ⟨longer, known⟩ := (exponentLength_letters pause letters again).2 rest
          rw [measured] at known
          cases known
    · rw [not_or] at isLetter
      have zero : ∀ rest, exponentPart (letter :: rest) = 0 := fun rest =>
        exponentPart_eq_zero (fun _ same => isLetter.1 (List.cons.inj same).1)
          fun _ same => isLetter.2 (List.cons.inj same).1
      rw [List.cons_append, List.cons_append, zero, zero]

/-- A number with a point or an exponent is read again. -/
private theorem fractionalLength_pause {body : Nat} (measured : fractionalLength (lit ++ rest) = some body)
    (number : numberLength (lit ++ rest) body = some lit.length) (more : List Char) :
    fractionalLength (lit ++ d :: more) = some body := by
  have inside := le_of_numberLength number
  rw [fractionalLength_eq_some_iff] at measured ⊢
  generalize whole : lit ++ rest = text at measured
  cases measured with
  | @point digits fraction tail isDigits innerFraction ends free =>
    obtain ⟨inner, rfl, rfl⟩ : ∃ inner, lit = (digits ++ '.' :: fraction) ++ inner ∧ tail = inner ++ rest :=
      exists_inner (by simpa using whole) (by simp; omega)
    have counted : exponentPart (inner ++ rest) ≤ inner.length := by
      simp only [List.length_append, List.length_cons] at inside
      omega
    have suffix : exponentPart (inner ++ rest) = 0 → (wordLength (inner ++ rest)).getD 0 = inner.length := by
      intro none
      have spelled := withSuffix_of_numberLength number
      have split : ((digits ++ '.' :: fraction ++ inner) ++ rest).drop (digits.length + 1 + fraction.length) =
          inner ++ rest := by
        rw [List.append_assoc, List.drop_left']
        simp
        omega
      rw [none, Nat.add_zero, withSuffix, suffixLength, split] at spelled
      simp only [List.length_append, List.length_cons] at spelled
      omega
    have part := exponentPart_pause pause counted suffix more
    have again : Fractional (digits ++ '.' :: (fraction ++ (inner ++ d :: more))) _ :=
      .point isDigits innerFraction ?ends ?free
    case ends =>
      have within := @takeWhile_within inner rest isDigitOrUnderscore (by rw [ends]; exact Nat.zero_le _)
      rw [takeWhile_pause pause failsPauses_isDigitOrUnderscore, ← within, ends]
    case free =>
      rcases fraction with _ | ⟨c, fraction⟩
      · rcases inner with _ | ⟨c, inner⟩
        · have noName : isIdentStart d = false := eq_false_of_isPause pause (by decide)
          simp [blocksPoint, @ne_of_isPause '.' d pause rfl, noName]
        · exact free
      · exact free
    rw [part] at again
    simpa using again
  | @exponent digits tail letter length isDigits isLetter measured =>
    obtain ⟨inner, rfl, rfl⟩ : ∃ inner, lit = (digits ++ [letter]) ++ inner ∧ tail = inner ++ rest :=
      exists_inner (by simpa using whole) (by simp; omega)
    have again := exponentLength_pause pause measured (by simp at inside; omega) more
    simpa using Fractional.exponent isDigits isLetter again

/-- Whether a character may stand among the digits of a base. -/
def isDigitOf (base : Nat) (c : Char) : Bool :=
  c == '_' || c.isDigit || ((hexDigit? c).any (· < base))

omit pause in
private theorem radixLength_eq {base length : Nat} {text : List Char}
    (measured : radixLength base text = some length) : (text.takeWhile (isDigitOf base)).length = length := by
  unfold radixLength at measured
  simp only at measured
  split at measured
  · cases measured
  · split at measured
    · cases measured
    · split at measured
      · exact Option.some.inj measured
      · cases measured

/-- The bases of whole numbers. -/
private def bases : List Nat := [2, 8, 10, 16]

private theorem radixLength_pause {base length : Nat} (known : base ∈ bases)
    (measured : radixLength base (lit ++ rest) = some length) (inside : length ≤ lit.length) (more : List Char) :
    radixLength base (lit ++ d :: more) = some length := by
  have digits : (lit ++ d :: more).takeWhile (isDigitOf base) = (lit ++ rest).takeWhile (isDigitOf base) := by
    have none : failsPauses (isDigitOf base) = true := by
      have all : (bases.all fun base => failsPauses (isDigitOf base)) = true := by decide
      exact List.all_eq_true.mp all base known
    have within := @takeWhile_within lit rest (isDigitOf base) (by rw [radixLength_eq measured]; exact inside)
    rw [within, takeWhile_pause pause none lit more]
  have same : ∀ text, radixLength base text =
      let digits := text.takeWhile (isDigitOf base)
      if digits.any fun c => c.isDigit && base ≤ c.toNat - '0'.toNat then none
      else if base = 10 && digits.head? == some '_' then none
      else if digits.any (· != '_') then some digits.length
      else none := fun _ => rfl
  rw [same] at measured ⊢
  rw [digits]
  exact measured

/-- No pause takes the place of the mark of a base. -/
private theorem ne_marked {mark : Char} (noPause : isPause mark = false)
    (unmarked : ∀ text, lit ++ rest = '0' :: mark :: text → False) (text : List Char) :
    lit ++ d :: more ≠ '0' :: mark :: text := by
  intro same
  rcases lit with _ | ⟨first, _ | ⟨second, others⟩⟩
  · exact (ne_of_isPause pause rfl) (List.cons.inj same).1
  · exact (ne_of_isPause pause noPause) (List.cons.inj (List.cons.inj same).2).1
  · obtain ⟨rfl, later⟩ := List.cons.inj same
    obtain ⟨rfl, _⟩ := List.cons.inj later
    exact unmarked _ rfl

private theorem wholeLength_pause {length : Nat} (measured : wholeLength (lit ++ rest) = some length)
    (inside : length ≤ lit.length) (more : List Char) : wholeLength (lit ++ d :: more) = some length := by
  have marked : ∀ {base : Nat} {mark : Char} {text : List Char}, base ∈ bases → lit ++ rest = '0' :: mark :: text →
      (radixLength base text).map (· + 2) = some length →
      ∃ inner, lit = '0' :: mark :: inner ∧
        (radixLength base (inner ++ d :: more)).map (· + 2) = some length := by
    intro base mark text known same measured
    obtain ⟨digits, counted, rfl⟩ := Option.map_eq_some_iff.mp measured
    obtain ⟨inner, rfl, rfl⟩ := @exists_inner _ _ ['0', mark] _ same (by simp; omega)
    simp only [List.length_append, List.length_cons, List.length_nil] at inside
    exact ⟨inner, rfl, by rw [radixLength_pause pause known counted (by omega)]; rfl⟩
  generalize whole : lit ++ rest = text at measured
  unfold wholeLength at measured
  split at measured
  · obtain ⟨inner, rfl, again⟩ := marked (by decide) whole measured
    exact again
  · obtain ⟨inner, rfl, again⟩ := marked (by decide) whole measured
    exact again
  · obtain ⟨inner, rfl, again⟩ := marked (by decide) whole measured
    exact again
  · rename_i noHex noOctal noBinary
    subst whole
    unfold wholeLength
    split
    · rename_i same
      exact absurd same (ne_marked pause (by decide) noHex _)
    · rename_i same
      exact absurd same (ne_marked pause (by decide) noOctal _)
    · rename_i same
      exact absurd same (ne_marked pause (by decide) noBinary _)
    · exact radixLength_pause pause (by decide) measured inside more

omit pause in
theorem isIdentContinue_of_isDigitOf {base : Nat} {c : Char} (digit : isDigitOf base c = true) :
    isIdentContinue c = true := by
  simp only [isDigitOf, Bool.or_eq_true, beq_iff_eq] at digit
  rcases digit with (rfl | digit) | hex
  · decide
  · exact isIdentContinue_of_digits (fun _ mem => by rwa [List.mem_singleton.mp mem]) c (List.mem_singleton_self c)
  · have ascii : c.toNat < 128 := by
      unfold hexDigit? at hex
      simp only [Char.le_def, UInt32.le_iff_toNat_le] at hex
      split at hex
      · rename_i range
        exact Nat.lt_of_le_of_lt range.2 (by decide)
      · split at hex
        · rename_i range
          exact Nat.lt_of_le_of_lt range.2 (by decide)
        · split at hex
          · rename_i range
            exact Nat.lt_of_le_of_lt range.2 (by decide)
          · cases hex
    have letters : ∀ code < 128, (hexDigit? (Char.ofNat code)).isSome = true →
        isIdentContinue (Char.ofNat code) = true := by decide
    rw [← Char.ofNat_toNat c]
    refine letters _ ascii ?_
    rw [Char.ofNat_toNat]
    obtain ⟨value, known, _⟩ := Option.any_eq_true _ _ |>.mp hex
    rw [known]
    rfl

omit pause in
private theorem isIdentContinue_of_radixLength {base length : Nat} {text : List Char}
    (measured : radixLength base text = some length) : ∀ c ∈ text.take length, isIdentContinue c = true := by
  intro c mem
  have digits : text.take length = text.takeWhile (isDigitOf base) := by
    rw [← radixLength_eq measured]
    exact (List.prefix_iff_eq_take.mp (List.takeWhile_prefix _)).symm
  rw [digits] at mem
  exact isIdentContinue_of_isDigitOf (List.all_eq_true.mp List.all_takeWhile c mem)

omit pause in
/-- The digits of a whole number and its suffix are characters of a word. -/
private theorem isIdentContinue_of_wholeLength {body : Nat} (measured : wholeLength (lit ++ rest) = some body)
    (number : numberLength (lit ++ rest) body = some lit.length) : ∀ c ∈ lit, isIdentContinue c = true := by
  have digits : ∀ c ∈ (lit ++ rest).take body, isIdentContinue c = true := by
    generalize lit ++ rest = text at measured
    unfold wholeLength at measured
    have marked : ∀ {base : Nat} {mark : Char} {text : List Char}, isIdentContinue mark = true →
        (radixLength base text).map (· + 2) = some body →
        ∀ c ∈ ('0' :: mark :: text).take body, isIdentContinue c = true := by
      intro base mark text letter measured c mem
      obtain ⟨inner, counted, rfl⟩ := Option.map_eq_some_iff.mp measured
      rw [List.take_succ_cons, List.take_succ_cons] at mem
      rcases List.mem_cons.mp mem with rfl | mem
      · decide
      · rcases List.mem_cons.mp mem with rfl | mem
        · exact letter
        · exact isIdentContinue_of_radixLength counted c mem
    split at measured
    · exact marked (by decide) measured
    · exact marked (by decide) measured
    · exact marked (by decide) measured
    · exact isIdentContinue_of_radixLength measured
  have inside := le_of_numberLength number
  have spelled := withSuffix_of_numberLength number
  rw [withSuffix, suffixLength, List.drop_append_of_le_length inside] at spelled
  have counted : (lit.drop body).length = lit.length - body := List.length_drop
  have letters := @isIdentContinue_of_wordLength (lit.drop body) rest (by omega)
  intro c mem
  rw [← List.take_append_drop body lit, List.mem_append] at mem
  rcases mem with mem | mem
  · exact digits c (by rwa [List.take_append_of_le_length inside])
  · exact letters c mem

omit pause in
/-- A character that comes up in a text before a pause stands in front of it. -/
private theorem exists_behind {digits tail : List Char} {c : Char} (same : lit ++ d :: more = digits ++ c :: tail)
    (apart : d ∉ digits) (other : d ≠ c) : ∃ inner, lit = digits ++ c :: inner ∧ tail = inner ++ d :: more := by
  rcases List.append_eq_append_iff.mp same with ⟨inner, whole, behind⟩ | ⟨inner, whole, behind⟩
  · rcases inner with _ | ⟨e, inner⟩
    · exact absurd (List.cons.inj behind).1 other
    · refine absurd ?_ apart
      rw [whole, (List.cons.inj behind).1]
      exact List.mem_append_right _ List.mem_cons_self
  · rcases inner with _ | ⟨e, inner⟩
    · exact absurd (List.cons.inj behind).1.symm other
    · obtain ⟨rfl, rfl⟩ := List.cons.inj behind
      exact ⟨inner, whole, rfl⟩

/-- Where a text is all letters, a number at its beginning is all of it. -/
private theorem number_of_letters (continues : ∀ c ∈ lit, isIdentContinue c = true) {length : Nat}
    (number : (fractionalLength (lit ++ d :: more)).bind (numberLength (lit ++ d :: more)) = some length) :
    length = lit.length := by
  obtain ⟨body, measured, number⟩ := Option.bind_eq_some_iff.mp number
  have apart : ∀ {digits : List Char}, IsDigits digits → d ∉ digits := by
    intro digits isDigits mem
    have other : isDigitOrUnderscore d = false := eq_false_of_isPause pause failsPauses_isDigitOrUnderscore
    rw [isDigits.2 d mem] at other
    cases other
  have inside : body ≤ lit.length := by
    rw [fractionalLength_eq_some_iff] at measured
    generalize whole : lit ++ d :: more = text at measured
    cases measured with
    | @point digits fraction tail isDigits inner ends free =>
      obtain ⟨inner, rfl, _⟩ := exists_behind whole (apart isDigits) (ne_of_isPause pause rfl)
      exact absurd (continues '.' (by simp)) (by decide)
    | @exponent digits tail letter length isDigits isLetter measured =>
      have other : d ≠ letter := by
        rcases isLetter with rfl | rfl
        · exact ne_of_isPause pause rfl
        · exact ne_of_isPause pause rfl
      obtain ⟨inner, rfl, rfl⟩ := exists_behind whole (apart isDigits) other
      have letters : ∀ c ∈ inner, isIdentContinue c = true :=
        fun c mem => continues c (List.mem_append_right _ (List.mem_cons_of_mem _ mem))
      have short := (exponentLength_letters pause letters measured).1
      simp only [List.length_append, List.length_cons]
      omega
  have spelled := withSuffix_of_numberLength number
  have split : (lit ++ d :: more).drop body = lit.drop body ++ d :: more := List.drop_append_of_le_length inside
  have counted : (lit.drop body).length = lit.length - body := List.length_drop
  rw [withSuffix, suffixLength, split] at spelled
  rcases left : lit.drop body with _ | ⟨c, letters⟩
  · rw [left, List.nil_append, wordLength_break (isBreak_of_isPause pause)] at spelled
    rw [left, List.length_nil] at counted
    rw [Option.getD_none] at spelled
    omega
  · have goesOn : ∀ e ∈ c :: letters, isIdentContinue e = true :=
      fun e mem => continues e (List.drop_subset body lit (by rwa [left]))
    rw [left, List.length_cons] at counted
    rw [left, List.cons_append, wordLength] at spelled
    split at spelled
    · rw [takeWhile_isIdentContinue (.cons (isBreak_of_isPause pause) more)
        fun e mem => goesOn e (List.mem_cons_of_mem _ mem), Option.getD_some] at spelled
      omega
    · rw [Option.getD_none, Nat.add_zero] at spelled
      subst spelled
      unfold numberLength at number
      have noStart : withSuffix (lit ++ d :: more) body = body := withSuffix_of_numberLength number
      simp only [noStart, split, left, List.cons_append, goesOn c List.mem_cons_self, if_true] at number
      cases number

omit pause in
theorem quotedLiteralLength_of_isDigit {first : Char} (digit : first.isDigit = true) (text : List Char) :
    quotedLiteralLength (first :: text) = none := by
  have other : ∀ {c : Char}, c.isDigit = false → first ≠ c := by
    rintro c noDigit rfl
    rw [digit] at noDigit
    cases noDigit
  unfold quotedLiteralLength
  split
  all_goals first
    | rfl
    | (rename_i same
       exact absurd (List.cons.inj same).1 (other (by decide)))

omit pause in
/-- A number begins with a digit. -/
private theorem isDigit_of_number {text : List Char} {length : Nat}
    (measured : (match (fractionalLength text).bind (numberLength text) with
      | some length => some length
      | none => (wholeLength text).bind (numberLength text)) = some length) :
    ∃ first rest, text = first :: rest ∧ first.isDigit = true := by
  split at measured
  · rename_i fractional
    obtain ⟨body, known, _⟩ := Option.bind_eq_some_iff.mp fractional
    rcases fractionalLength_eq_some_iff.mp known with
      ⟨⟨⟨first, rest, rfl, digit⟩, _⟩⟩ | ⟨⟨⟨first, rest, rfl, digit⟩, _⟩⟩
    · exact ⟨first, _, rfl, digit⟩
    · exact ⟨first, _, rfl, digit⟩
  · obtain ⟨body, whole, _⟩ := Option.bind_eq_some_iff.mp measured
    unfold wholeLength at whole
    split at whole
    · exact ⟨'0', _, rfl, by decide⟩
    · exact ⟨'0', _, rfl, by decide⟩
    · exact ⟨'0', _, rfl, by decide⟩
    · -- a decimal number begins with no underscore
      cases text with
      | nil => cases whole
      | cons first rest =>
        refine ⟨first, rest, rfl, ?_⟩
        cases digit : first.isDigit with
        | true => rfl
        | false =>
          have ends := hexDigit?_of_not_isDigit digit
          unfold radixLength at whole
          by_cases low : first = '_'
          · subst low
            simp at whole
          · simp [digit, ends, low] at whole

omit pause in
/-- A literal is quoted or begins with a digit. -/
theorem begins_of_literalLength {text : List Char} {length : Nat} (measured : literalLength text = some length) :
    (∃ body ≤ length, quotedLiteralLength text = some body) ∨
      ∃ first rest, text = first :: rest ∧ first.isDigit = true := by
  unfold literalLength at measured
  split at measured
  · rename_i body quoted
    cases measured
    exact .inl ⟨body, Nat.le_add_right _ _, quoted⟩
  · exact .inr (isDigit_of_number measured)

/-- A literal reaches as far in front of a pause as it did in its source. -/
theorem literalLength_pause (filled : lit ≠ []) (measured : literalLength (lit ++ rest) = some lit.length)
    (more : List Char) :
    literalLength (lit ++ d :: more) = some lit.length := by
  unfold literalLength at measured
  split at measured
  · rename_i body quoted
    obtain ⟨front, tail, same, rfl, again⟩ := delimits_quotedLiteralLength quoted
    have spelled := Option.some.inj measured
    unfold withSuffix suffixLength at spelled
    obtain ⟨inner, rfl, rfl⟩ := exists_inner same (by omega)
    rw [List.append_assoc, List.drop_left, List.length_append] at spelled
    have suffix := wordLength_pause pause inner more (Nat.add_left_cancel spelled)
    rw [List.append_assoc, literalLength, again]
    simp only [withSuffix, suffixLength, List.drop_left, suffix, List.length_append]
  · rename_i noQuote
    have unquoted : quotedLiteralLength (lit ++ d :: more) = none := by
      obtain ⟨first, others, same, digit⟩ := isDigit_of_number measured
      obtain ⟨c, letters, rfl⟩ := List.exists_cons_of_ne_nil filled
      obtain ⟨rfl, _⟩ := List.cons.inj same
      exact quotedLiteralLength_of_isDigit digit _
    split at measured
    · rename_i length fractional
      cases measured
      obtain ⟨body, known, number⟩ := Option.bind_eq_some_iff.mp fractional
      have again := fractionalLength_pause pause known number more
      have numberAgain := numberLength_pause pause number more
      rw [literalLength, unquoted, again, Option.bind_some, numberAgain]
    · obtain ⟨body, known, number⟩ := Option.bind_eq_some_iff.mp measured
      have again := wholeLength_pause pause known (le_of_numberLength number) more
      have numberAgain := numberLength_pause pause number more
      have letters := isIdentContinue_of_wholeLength known number
      rw [literalLength, unquoted]
      cases fractional : (fractionalLength (lit ++ d :: more)).bind (numberLength (lit ++ d :: more)) with
      | some length => rw [number_of_letters pause letters fractional]
      | none => rw [again, Option.bind_some, numberAgain]

end Numbers

/-- Where a literal begins, nothing else does. -/
private theorem piece?_of_literalLength {c : Char} {text : List Char} {length : Nat}
    (measured : literalLength (c :: text) = some length) (other : List Char) :
    piece? (c :: other) = lexeme? (c :: other) := by
  have begins : c = '"' ∨ c = '\'' ∨ isIdentContinue c = true := by
    rcases begins_of_literalLength measured with ⟨body, _, quoted⟩ | ⟨first, others, same, digit⟩
    · unfold quotedLiteralLength at quoted
      split at quoted
      all_goals rename_i same
      all_goals try obtain ⟨rfl, _⟩ := List.cons.inj same
      · exact .inl rfl
      · exact .inr (.inr (by decide))
      · exact .inr (.inr (by decide))
      · exact .inr (.inr (by decide))
      · exact .inr (.inr (by decide))
      · exact .inr (.inr (by decide))
      · exact .inr (.inr (by decide))
      · exact .inr (.inl rfl)
      · cases quoted
    · obtain ⟨rfl, _⟩ := List.cons.inj same
      exact .inr (.inr (isIdentContinue_of_digits (fun _ mem => by rwa [List.mem_singleton.mp mem]) c
        (List.mem_singleton_self c)))
  rcases begins with rfl | rfl | continues
  · rfl
  · rfl
  · exact piece?_eq_lexeme? continues other

/-! ## Inside a text -/

private theorem suffixLength_le (text : List Char) : suffixLength text ≤ text.length := by
  cases text with
  | nil => exact Nat.le_refl 0
  | cons c rest =>
    rw [suffixLength, wordLength]
    have few : (rest.takeWhile isIdentContinue).length ≤ rest.length := (List.takeWhile_sublist _).length_le
    rw [List.length_cons]
    split
    · rw [Option.getD_some]
      omega
    · exact Nat.zero_le _

private theorem withSuffix_le {text : List Char} {body : Nat} (inside : body ≤ text.length) :
    withSuffix text body ≤ text.length := by
  have few := suffixLength_le (text.drop body)
  rw [List.length_drop] at few
  rw [withSuffix]
  omega

private theorem exponentLength_le {text : List Char} {length : Nat}
    (measured : exponentLength text = some length) : length ≤ text.length := by
  obtain ⟨low, sign, digits, lowSame, signSame, digitsSame, digit, rfl⟩ :=
    exponentLength_eq_some_iff.mp measured
  have some : 0 < digits.length := by
    cases digits with
    | nil => cases digit
    | cons => exact Nat.zero_lt_succ _
  have few : digits.length ≤ (text.drop sign).length := by
    rw [digitsSame]
    exact (List.takeWhile_sublist _).length_le
  rw [List.length_drop] at few
  omega

private theorem exponentPart_le (text : List Char) : exponentPart text ≤ text.length := by
  have part : ∀ rest : List Char, ((exponentLength rest).map (· + 1)).getD 0 ≤ rest.length + 1 := by
    intro rest
    cases measured : exponentLength rest with
    | none => exact Nat.zero_le _
    | some length =>
      have inside := exponentLength_le measured
      rw [Option.map_some, Option.getD_some]
      omega
  unfold exponentPart
  split
  · exact part _
  · exact part _
  · exact Nat.zero_le _

private theorem fractionalLength_le {text : List Char} {length : Nat}
    (measured : fractionalLength text = some length) : length ≤ text.length := by
  rw [fractionalLength_eq_some_iff] at measured
  cases measured with
  | @point digits fraction tail =>
    have part := exponentPart_le tail
    simp only [List.length_append, List.length_cons]
    omega
  | @exponent digits tail letter length isDigits isLetter measured =>
    have inside := exponentLength_le measured
    simp only [List.length_append, List.length_cons]
    omega

private theorem wholeLength_le {text : List Char} {length : Nat}
    (measured : wholeLength text = some length) : length ≤ text.length := by
  have digits : ∀ {base : Nat} {text : List Char} {length : Nat}, radixLength base text = some length →
      length ≤ text.length := by
    intro base text length measured
    rw [← radixLength_eq measured]
    exact (List.takeWhile_sublist _).length_le
  have marked : ∀ {base : Nat} {mark : Char} {text : List Char},
      (radixLength base text).map (· + 2) = some length → length ≤ ('0' :: mark :: text).length := by
    intro base mark text measured
    obtain ⟨inner, counted, rfl⟩ := Option.map_eq_some_iff.mp measured
    exact Nat.add_le_add_right (digits counted) 2
  unfold wholeLength at measured
  split at measured
  · exact marked measured
  · exact marked measured
  · exact marked measured
  · exact digits measured

/-- A literal is no longer than the text it begins. -/
theorem literalLength_le {text : List Char} {length : Nat} (measured : literalLength text = some length) :
    length ≤ text.length := by
  unfold literalLength at measured
  split at measured
  · rename_i body quoted
    obtain ⟨front, rest, rfl, rfl, _⟩ := delimits_quotedLiteralLength quoted
    cases measured
    exact withSuffix_le (by rw [List.length_append]; exact Nat.le_add_right _ _)
  · have number : ∀ {body : Nat}, body ≤ text.length → numberLength text body = some length →
        length ≤ text.length := by
      intro body inside measured
      rw [← withSuffix_of_numberLength measured]
      exact withSuffix_le inside
    split at measured
    · rename_i fractional
      cases measured
      obtain ⟨body, known, measured⟩ := Option.bind_eq_some_iff.mp fractional
      exact number (fractionalLength_le known) measured
    · obtain ⟨body, known, measured⟩ := Option.bind_eq_some_iff.mp measured
      exact number (wholeLength_le known) measured

/-- What is cut off as a literal is measured as one, or stands for an error. -/
private theorem literalLength_of_piece? {text : List Char} {length : Nat}
    (found : piece? text = some (.literal, length)) :
    literalLength text = some length ∨ length = errorMark.length ∧ errorMark.isPrefixOf text = true := by
  cases isPiece_of_piece? found with
  | comment _ found => rcases kind_of_comment? found with same | ⟨_, same⟩ <;> cases same
  | error marked => exact .inr ⟨rfl, marked⟩
  | lexeme _ lexeme =>
    cases lexeme with
    | literal measured => exact .inl measured

/-- What is cut off as a literal is no longer than the text. -/
theorem le_of_piece?_literal {text : List Char} {length : Nat}
    (found : piece? text = some (.literal, length)) : length ≤ text.length := by
  rcases literalLength_of_piece? found with measured | ⟨rfl, marked⟩
  · exact literalLength_le measured
  · exact (List.isPrefixOf_iff_prefix.mp marked).length_le

/-- A literal that was cut off a text is cut off again in front of a pause. -/
theorem piece?_literal_pause {lit rest : List Char} (filled : lit ≠ [])
    (found : piece? (lit ++ rest) = some (.literal, lit.length)) {d : Char} (pause : isPause d = true)
    (more : List Char) : piece? (lit ++ d :: more) = some (.literal, lit.length) := by
  rcases literalLength_of_piece? found with measured | ⟨counted, marked⟩
  · have again := literalLength_pause pause filled measured more
    obtain ⟨c, letters, rfl⟩ := List.exists_cons_of_ne_nil filled
    rw [List.cons_append] at measured again ⊢
    rw [piece?_of_literalLength measured]
    unfold lexeme?
    rw [again]
  · obtain ⟨tail, whole⟩ := List.isPrefixOf_iff_prefix.mp marked
    obtain rfl : errorMark = lit := List.append_inj_left whole counted.symm
    rfl

end SlotArray.Source
