import SlotArray.Proofs.Lexing

/-! How far a quoted literal reaches. It carries its own end, so it reaches as far whatever is written
behind it. -/
namespace SlotArray.Source
open SlotArray.Text

/-- A text in which a measure looks no further than what it measures. -/
def Delimits (measure : List Char → Option Nat) (text : List Char) (length : Nat) : Prop :=
  ∃ body rest, text = body ++ rest ∧ body.length = length ∧ ∀ more, measure (body ++ more) = some length

/-- A measure that passes over some characters and goes on with another one. -/
theorem Delimits.behind {measure inner : List Char → Option Nat} {rest : List Char} {length : Nat}
    (front : List Char) (delimits : Delimits inner rest length)
    (goesOn : ∀ text, inner text = some length → measure (front ++ text) = some (length + front.length)) :
    Delimits measure (front ++ rest) (length + front.length) := by
  obtain ⟨body, rest, rfl, counted, again⟩ := delimits
  refine ⟨front ++ body, rest, by rw [List.append_assoc],
    by rw [List.length_append, counted, Nat.add_comm], fun more => ?_⟩
  rw [List.append_assoc]
  exact goesOn _ (again more)

/-- One that ends where it stands. -/
theorem Delimits.here {measure : List Char → Option Nat} (front : List Char) {rest : List Char}
    (ends : ∀ more, measure (front ++ more) = some front.length) :
    Delimits measure (front ++ rest) front.length :=
  ⟨front, rest, rfl, rfl, ends⟩

private theorem braceDigits_spec {count value length : Nat} {text : List Char} {found : Nat × Nat}
    (read : braceEscape?.digits count value length text = some found) :
    ∃ body rest, text = body ++ rest ∧ found.2 = length + body.length ∧
      ∀ more, braceEscape?.digits count value length (body ++ more) = some found := by
  fun_induction braceEscape?.digits count value length text with
  | case1 => cases read
  | case2 => cases read
  | case3 count value length c rest digit isDigit room ih =>
    obtain ⟨body, rest, rfl, counted, again⟩ := ih read
    refine ⟨c :: body, rest, rfl, by rw [counted, List.length_cons]; omega, fun more => ?_⟩
    rw [List.cons_append, braceEscape?.digits, isDigit]
    simp only [room, if_false]
    exact again more
  | case4 => cases read
  | case5 count value length rest begun noDigit ih =>
    obtain ⟨body, rest, rfl, counted, again⟩ := ih read
    refine ⟨'_' :: body, rest, rfl, by rw [counted, List.length_cons]; omega, fun more => ?_⟩
    rw [List.cons_append, braceEscape?.digits, noDigit]
    simp only [begun, if_false, if_true]
    exact again more
  | case6 count value length c rest noDigit begun other closes =>
    cases read
    refine ⟨[c], rest, rfl, rfl, fun more => ?_⟩
    rw [List.singleton_append, braceEscape?.digits, noDigit]
    simp only [begun, other, closes, if_false, if_true]
  | case7 => cases read

private theorem braceEscape?_spec {text : List Char} {found : Nat × Nat}
    (read : braceEscape? text = some found) :
    ∃ body rest, text = body ++ rest ∧ found.2 = body.length ∧
      ∀ more, braceEscape? (body ++ more) = some found := by
  unfold braceEscape? at read
  split at read
  · obtain ⟨body, rest, rfl, counted, again⟩ := braceDigits_spec read
    exact ⟨'\x7b' :: body, rest, rfl, by rw [counted, List.length_cons]; omega, again⟩
  · cases read

section Quoted
-- A letter that begins a longer escape is none by itself.
variable {rules : QuotedRules} (noHex : rules.letters.contains 'x' = false)
include noHex

private theorem delimits_escapeLength {text : List Char} {length : Nat}
    (read : escapeLength rules text = some length) : Delimits (escapeLength rules) text length := by
  unfold escapeLength at read
  split at read
  · rename_i high low rest
    split at read
    · rename_i highDigit lowDigit isHigh isLow
      split at read
      · rename_i permitted
        cases read
        refine .here ['x', high, low] fun more => ?_
        simp only [List.cons_append, List.nil_append, escapeLength, isHigh, isLow, permitted, if_true,
          List.length_cons, List.length_nil]
      · cases read
    · cases read
  · rename_i rest
    split at read
    · rename_i value size braces
      split at read
      · rename_i permitted
        cases read
        obtain ⟨body, rest, rfl, counted, again⟩ := braceEscape?_spec braces
        refine ⟨'u' :: body, rest, rfl, by rw [List.length_cons, ← counted]; omega, fun more => ?_⟩
        simp only [List.cons_append, escapeLength, again more, permitted, if_true]
      · cases read
    · cases read
  · rename_i c rest _ noBrace
    split at read
    · rename_i known
      cases read
      refine .here [c] fun more => ?_
      have notHex : c ≠ 'x' := fun same => by
        rw [same, noHex] at known
        cases known
      simpa [escapeLength, notHex, noBrace] using known
    · cases read
  · cases read

omit noHex in
private theorem continuationLength_spec {text : List Char} {length : Nat}
    (read : continuationLength text = some length) :
    ∃ white c rest, text = white ++ c :: rest ∧ white.length = length ∧
      ∀ more, continuationLength (white ++ c :: more) = some length := by
  fun_induction continuationLength text generalizing length with
  | case1 => cases read
  | case2 rest ih =>
    obtain ⟨inner, measured, rfl⟩ := Option.map_eq_some_iff.mp read
    obtain ⟨white, c, rest, rfl, rfl, again⟩ := ih measured
    refine ⟨'\r' :: '\n' :: white, c, rest, rfl, rfl, fun more => ?_⟩
    simp only [List.cons_append, continuationLength, again more, Option.map_some]
  | case3 => cases read
  | case4 c rest noPair noReturn blank ih =>
    obtain ⟨inner, measured, rfl⟩ := Option.map_eq_some_iff.mp read
    obtain ⟨white, next, rest, rfl, rfl, again⟩ := ih measured
    refine ⟨c :: white, next, rest, rfl, rfl, fun more => ?_⟩
    have ordinary : c ≠ '\r' := fun same => by
      rw [same] at blank
      cases blank
    simp [continuationLength, ordinary, blank, again more]
  | case5 c rest noPair noReturn solid =>
    cases read
    refine ⟨[], c, rest, rfl, rfl, fun more => ?_⟩
    have ordinary : c ≠ '\r' := fun same => noReturn same
    simp [continuationLength, ordinary, solid]

/-- What a backslash takes along: white space at the end of a line, or an escape. -/
def escapedLength (rules : QuotedRules) (text : List Char) : Option Nat :=
  match text with
  | '\n' :: _ | '\r' :: _ => continuationLength text
  | _ => escapeLength rules text

/-- White space ends in front of the next character, so that has to stay. -/
private theorem escapedLength_spec {text : List Char} {length : Nat}
    (read : escapedLength rules text = some length) :
    ∃ body rest, text = body ++ rest ∧ body.length = length ∧
      ∀ more, more.head? = rest.head? → escapedLength rules (body ++ more) = some length := by
  have continued : ∀ {first : Char} {tail : List Char}, first = '\n' ∨ first = '\r' →
      continuationLength (first :: tail) = some length →
      ∃ body rest, first :: tail = body ++ rest ∧ body.length = length ∧
        ∀ more, more.head? = rest.head? → escapedLength rules (body ++ more) = some length := by
    intro first tail feeds measured
    obtain ⟨white, c, rest, same, counted, again⟩ := continuationLength_spec measured
    refine ⟨white, c :: rest, same, counted, fun more next => ?_⟩
    obtain ⟨c', rest', rfl⟩ : ∃ c rest, more = c :: rest := by
      cases more with
      | nil => cases next
      | cons c rest => exact ⟨c, rest, rfl⟩
    obtain rfl : c' = c := Option.some.inj next
    have begins : (white ++ c' :: rest').head? = some first := by
      cases white with
      | nil => rw [List.nil_append, List.head?_cons, (List.cons.inj same).1]
      | cons d white => rw [List.cons_append, List.head?_cons, (List.cons.inj same).1]
    obtain ⟨others, whole⟩ : ∃ others, white ++ c' :: rest' = first :: others := by
      cases list : white ++ c' :: rest' with
      | nil => rw [list] at begins; cases begins
      | cons d others => rw [list] at begins; exact ⟨others, by rw [Option.some.inj begins]⟩
    have measured := again rest'
    rw [whole] at measured ⊢
    rcases feeds with rfl | rfl
    · exact measured
    · exact measured
  unfold escapedLength at read
  split at read
  · exact continued (.inl rfl) read
  · exact continued (.inr rfl) read
  · rename_i noFeed noReturn
    obtain ⟨body, rest, rfl, counted, again⟩ := delimits_escapeLength noHex read
    refine ⟨body, rest, rfl, counted, fun more _ => ?_⟩
    cases body with
    | nil => cases again []
    | cons c body =>
      rw [escapedLength]
      · exact again more
      · exact fun tail same => noFeed _ (by rw [List.cons_append, (List.cons.inj same).1])
      · exact fun tail same => noReturn _ (by rw [List.cons_append, (List.cons.inj same).1])

omit noHex in
theorem quotedLength_backslash (rest : List Char) :
    quotedLength rules ('\\' :: rest) =
      match escapedLength rules rest with
      | some length => (quotedLength rules (rest.drop length)).map (· + (1 + length))
      | none => none := by
  rw [quotedLength.eq_def]
  rfl

omit noHex in
theorem quotedLength_plain {c : Char} (noQuote : c ≠ '"') (noReturn : c ≠ '\r') (noSlash : c ≠ '\\')
    (plain : rules.plain c = true) (rest : List Char) :
    quotedLength rules (c :: rest) = (quotedLength rules rest).map (· + 1) := by
  rw [quotedLength.eq_def]
  simp [noReturn, plain]

private theorem delimits_quotedLength {text : List Char} {length : Nat}
    (read : quotedLength rules text = some length) : Delimits (quotedLength rules) text length := by
  fun_induction quotedLength rules text generalizing length with
  | case1 => cases read
  | case2 rest =>
    cases read
    exact .here ['"'] fun more => by simp [quotedLength]
  | case3 rest ih =>
    obtain ⟨inner, measured, rfl⟩ := Option.map_eq_some_iff.mp read
    exact (ih measured).behind ['\r', '\n'] fun text again => by simp [quotedLength, again]
  | case4 => cases read
  | case5 rest length? escape known =>
    rename_i ih
    obtain ⟨inner, measured, rfl⟩ := Option.map_eq_some_iff.mp read
    have escaped : escapedLength rules rest = some escape := known
    obtain ⟨front, tail, rfl, counted, stays⟩ := escapedLength_spec noHex escaped
    rw [← counted, List.drop_left] at measured ih
    obtain ⟨body, rest, rfl, counted', again⟩ := ih measured
    obtain ⟨c, body, rfl⟩ := List.exists_cons_of_ne_nil fun none : body = [] => by
      have empty := again []
      rw [none, List.nil_append, quotedLength.eq_def] at empty
      cases empty
    refine ⟨'\\' :: (front ++ c :: body), rest, by simp, ?_, fun more => ?_⟩
    · rw [List.length_cons, List.length_append, counted, counted']
      omega
    · have known : escapedLength rules (front ++ c :: (body ++ more)) = some escape := stays _ rfl
      have whole : '\\' :: (front ++ c :: body) ++ more = '\\' :: (front ++ c :: (body ++ more)) := by simp
      have later := again more
      rw [List.cons_append] at later
      rw [whole, quotedLength_backslash, known]
      simp only [← counted, List.drop_left, later, Option.map_some]
  | case6 => cases read
  | case7 c rest noQuote noPair noReturn noSlash plain ih =>
    obtain ⟨inner, measured, rfl⟩ := Option.map_eq_some_iff.mp read
    exact (ih measured).behind [c] fun text again => by
      rw [List.singleton_append, quotedLength_plain noQuote noReturn noSlash plain, again]
      rfl
  | case8 => cases read

/-- One character between single quotes, or one escape. -/
private def oneLength (rules : QuotedRules) (text : List Char) : Option Nat :=
  match text with
  | '\\' :: rest => (escapeLength rules rest).map (· + 1)
  | c :: _ => if rules.plain c then some 1 else none
  | [] => none

private theorem delimits_oneLength {text : List Char} {length : Nat}
    (read : oneLength rules text = some length) : Delimits (oneLength rules) text length := by
  unfold oneLength at read
  split at read
  · obtain ⟨inner, escape, rfl⟩ := Option.map_eq_some_iff.mp read
    exact (delimits_escapeLength noHex escape).behind ['\\'] fun text again => by
      simp [oneLength, again]
  · rename_i c rest noSlash
    split at read
    · rename_i plain
      cases read
      exact .here [c] fun more => by simp [oneLength, plain]
    · cases read
  · cases read

/-- A length with that of the single quote behind it. -/
private def closedLength (text : List Char) : Option Nat → Option Nat
  | some length =>
    match text.drop length with
    | '\'' :: _ => some (length + 1)
    | _ => none
  | none => none

omit noHex in
private theorem quotedCharLength_eq (rules : QuotedRules) (text : List Char) :
    quotedCharLength rules text = closedLength text (oneLength rules text) := rfl

private theorem delimits_quotedCharLength {text : List Char} {length : Nat}
    (read : quotedCharLength rules text = some length) : Delimits (quotedCharLength rules) text length := by
  rw [quotedCharLength_eq] at read
  cases one : oneLength rules text with
  | none =>
    rw [one] at read
    cases read
  | some inner =>
    obtain ⟨body, rest, rfl, rfl, again⟩ := delimits_oneLength noHex one
    rw [one, closedLength, List.drop_left] at read
    split at read
    · rename_i rest
      cases read
      refine ⟨body ++ ['\''], rest, by rw [List.append_assoc]; rfl,
        by rw [List.length_append, List.length_singleton], fun more => ?_⟩
      rw [quotedCharLength_eq, List.append_assoc, again, closedLength, List.drop_left]
      rfl
    · cases read

/-! ## Raw text -/

omit noHex

private theorem le_of_rawLength {plain : Char → Bool} {hashes : Nat} {text : List Char} {length : Nat}
    (read : rawLength plain hashes text = some length) : 1 + hashes ≤ length := by
  fun_induction rawLength plain hashes text generalizing length with
  | case1 => cases read
  | case2 rest ih =>
    obtain ⟨inner, measured, rfl⟩ := Option.map_eq_some_iff.mp read
    have bound := ih measured
    omega
  | case3 => cases read
  | case4 => cases read; exact Nat.le_refl _
  | case5 c rest noPair noReturn goesOn isPlain ih =>
    obtain ⟨inner, measured, rfl⟩ := Option.map_eq_some_iff.mp read
    have bound := ih measured
    omega
  | case6 => cases read

private theorem rawLength_cons {plain : Char → Bool} {hashes : Nat} {c : Char} (noReturn : c ≠ '\r')
    (rest : List Char) : rawLength plain hashes (c :: rest) =
      if c = '"' && rest.take hashes == List.replicate hashes '#' then some (1 + hashes)
      else if plain c then (rawLength plain hashes rest).map (· + 1)
      else none := by
  rw [rawLength]
  · exact fun _ same _ => noReturn same
  · exact noReturn

/-- Text goes on behind a quote that too few hashes follow, and the hashes are counted before the text
can end. -/
private theorem delimits_rawLength {plain : Char → Bool} {hashes : Nat} {text : List Char} {length : Nat}
    (read : rawLength plain hashes text = some length) :
    Delimits (rawLength plain hashes) text length := by
  fun_induction rawLength plain hashes text generalizing length with
  | case1 => cases read
  | case2 rest ih =>
    obtain ⟨inner, measured, rfl⟩ := Option.map_eq_some_iff.mp read
    exact (ih measured).behind ['\r', '\n'] fun text again => by simp [rawLength, again]
  | case3 => cases read
  | case4 c rest noPair noReturn closes =>
    cases read
    rw [Bool.and_eq_true, decide_eq_true_eq, beq_iff_eq] at closes
    obtain ⟨rfl, hashed⟩ := closes
    have closing : ('"' :: List.replicate hashes '#').length = 1 + hashes := by
      rw [List.length_cons, List.length_replicate, Nat.add_comm]
    rw [← List.take_append_drop hashes rest, hashed, ← closing]
    refine .here ('"' :: List.replicate hashes '#') fun more => ?_
    have taken : (List.replicate hashes '#' ++ more).take hashes = List.replicate hashes '#' :=
      List.take_left' List.length_replicate
    simp [rawLength, taken, Nat.add_comm]
  | case5 c rest noPair noReturn goesOn isPlain ih =>
    obtain ⟨inner, measured, rfl⟩ := Option.map_eq_some_iff.mp read
    obtain ⟨body, rest, rfl, rfl, again⟩ := ih measured
    have long := le_of_rawLength measured
    refine ⟨c :: body, rest, rfl, rfl, fun more => ?_⟩
    have taken : ∀ more : List Char, (body ++ more).take hashes = body.take hashes :=
      fun more => List.take_append_of_le_length (by omega)
    rw [taken] at goesOn
    rw [List.cons_append, rawLength_cons noReturn, taken, if_neg goesOn, if_pos isPlain, again]
    rfl
  | case6 => cases read

private theorem delimits_rawOpenedLength {plain : Char → Bool} {text : List Char} {length : Nat}
    (read : rawOpenedLength plain text = some length) :
    Delimits (rawOpenedLength plain) text length := by
  have whole := @List.takeWhile_append_dropWhile _ (· == '#') text
  have allHashes : ∀ c ∈ text.takeWhile (· == '#'), (c == '#') = true :=
    fun c mem => List.all_eq_true.mp List.all_takeWhile c mem
  unfold rawOpenedLength at read
  simp only at read
  generalize text.takeWhile (· == '#') = hashes at whole allHashes read
  generalize text.dropWhile (· == '#') = behind at whole
  subst whole
  rw [List.drop_left] at read
  split at read
  · split at read
    · rename_i few
      obtain ⟨inner, measured, rfl⟩ := Option.map_eq_some_iff.mp read
      obtain ⟨body, rest, rfl, rfl, again⟩ := delimits_rawLength measured
      refine ⟨hashes ++ '"' :: body, rest, by simp, by simp; omega, fun more => ?_⟩
      have counted : (hashes ++ '"' :: (body ++ more)).takeWhile (· == '#') = hashes := by
        rw [List.takeWhile_append_of_pos allHashes]
        simp
      rw [List.append_assoc, List.cons_append, rawOpenedLength]
      simp [counted, few, again]
    · cases read
  · cases read

end Quoted

/-- A quoted literal ends with itself, whatever follows. -/
theorem delimits_quotedLiteralLength {text : List Char} {length : Nat}
    (read : quotedLiteralLength text = some length) : Delimits quotedLiteralLength text length := by
  unfold quotedLiteralLength at read
  split at read
  all_goals try obtain ⟨inner, measured, rfl⟩ := Option.map_eq_some_iff.mp read
  · exact (delimits_quotedLength rfl measured).behind ['"'] fun text again => by
      simp [quotedLiteralLength, again]
  · exact (delimits_rawOpenedLength measured).behind ['r'] fun text again => by
      simp [quotedLiteralLength, again]
  · exact (delimits_quotedLength rfl measured).behind ['b', '"'] fun text again => by
      simp [quotedLiteralLength, again]
  · exact (delimits_rawOpenedLength measured).behind ['b', 'r'] fun text again => by
      simp [quotedLiteralLength, again]
  · exact (delimits_quotedCharLength rfl measured).behind ['b', '\''] fun text again => by
      simp [quotedLiteralLength, again]
  · exact (delimits_quotedLength rfl measured).behind ['c', '"'] fun text again => by
      simp [quotedLiteralLength, again]
  · exact (delimits_rawOpenedLength measured).behind ['c', 'r'] fun text again => by
      simp [quotedLiteralLength, again]
  · exact (delimits_quotedCharLength rfl measured).behind ['\''] fun text again => by
      simp [quotedLiteralLength, again]
  · cases read

end SlotArray.Source
