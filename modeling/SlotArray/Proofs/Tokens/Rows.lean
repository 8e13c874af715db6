import SlotArray.Definition.SlotLines
import SlotArray.Proofs.Tokens.Balance
import SlotArray.Proofs.Rows

/-! Rows of a definition as tokens. Most rows are always the same, and what they do to brackets can
be computed. In others a number stands, which is read as one piece with the word in front of it, or
by itself; in others a name, after which a row goes on only if the name leaves no comment open. -/
namespace SlotArray.Source
open SlotArray.Text

/-! ## Numbers -/

/-- Whether a number can stand between a scan and a character: at the end of a word or by itself. -/
def Scan.takesNumber : Scan → Char → Bool
  | .apart, next | .parenthesis, next => isBreak next && next != '.'
  | .lexeme read, next => isPlainWord read && isBreak next
  | _, _ => false

/-- What a scan has found when a number begins. -/
def Scan.pending : Scan → List Token
  | .parenthesis => [.opening .parenthesis]
  | _ => []

/-- Letters and digits are one piece in front of a character that breaks it off. -/
private theorem Scan.run_piece {scan : Scan} {text read : List Char} {c : Char} {leaf : Leaf}
    (ran : scan.run text = some (.lexeme read, [])) (breaks : isBreak c = true)
    (found : Scan.lexeme? read c = some (.leaf leaf)) (rest : List Char) :
    scan.run (text ++ c :: rest) = emit [.leaf leaf] (run .apart (c :: rest)) := by
  have ends : settle (.lexeme read) c = some [.leaf leaf] := by simp [settle, breaks, found]
  rw [run_append_of_run ran, emit_nil, run_of_settle ends]

section Digits
variable {digits : List Char} (allDigits : ∀ d ∈ digits, d.isDigit = true) {c : Char}
include allDigits

private theorem Scan.run_digits (filled : digits ≠ []) (breaks : isBreak c = true) (noPoint : c ≠ '.')
    (rest : List Char) :
    ∃ leaf, run .apart (digits ++ c :: rest) = emit [.leaf leaf] (run .apart (c :: rest)) := by
  have continues := isIdentContinue_of_digits allDigits
  obtain ⟨first, others, rfl⟩ := List.exists_cons_of_ne_nil filled
  have ran : run .apart (first :: others) = some (.lexeme (first :: others), []) := by
    rw [run_cons, step_lexeme (continues first List.mem_cons_self), Option.bind_some, emit_nil,
      run_lexeme fun d mem => by simp [continues d (List.mem_cons_of_mem _ mem)]]
    rfl
  by_cases word : (isPlainWord (first :: others) || isMarkedWord (first :: others)) = true
  · exact ⟨_, run_piece ran breaks (if_pos word) rest⟩
  · have number : ((first :: others).all Char.isDigit && c != '.') = true := by
      rw [Bool.and_eq_true, List.all_eq_true, bne_iff_ne]
      exact ⟨allDigits, noPoint⟩
    exact ⟨_, run_piece ran breaks ((if_neg word).trans (if_pos number)) rest⟩

/-- A number is read as one piece, or as the end of one. -/
theorem Scan.run_number {scan : Scan} (takes : scan.takesNumber c = true) (filled : digits ≠ [])
    (rest : List Char) : ∃ leaf,
      scan.run (digits ++ c :: rest) = emit (scan.pending ++ [.leaf leaf]) (run .apart (c :: rest)) := by
  cases scan with
  | apart =>
    simp only [takesNumber, Bool.and_eq_true, bne_iff_ne] at takes
    exact run_digits allDigits filled takes.1 takes.2 rest
  | parenthesis =>
    simp only [takesNumber, Bool.and_eq_true, bne_iff_ne] at takes
    obtain ⟨leaf, read⟩ := run_digits allDigits filled takes.1 takes.2 rest
    obtain ⟨first, others, rfl⟩ := List.exists_cons_of_ne_nil filled
    have noMark : first ≠ '/' := by
      rintro rfl
      exact absurd (allDigits '/' List.mem_cons_self) (by decide)
    have settled : settle .parenthesis first = some [.opening .parenthesis] := by simp [settle, noMark]
    refine ⟨leaf, ?_⟩
    rw [List.cons_append, run_of_settle settled, ← List.cons_append, read, emit_emit]
    rfl
  | lexeme read =>
    simp only [takesNumber, Bool.and_eq_true] at takes
    have continues := isIdentContinue_of_digits allDigits
    have word : isPlainWord (read ++ digits) = true := by
      obtain ⟨first, others, rfl, start, letters⟩ := (isPlainWord_iff _).mp takes.1
      refine (isPlainWord_iff _).mpr ⟨first, others ++ digits, rfl, start, fun d mem => ?_⟩
      rcases List.mem_append.mp mem with mem | mem
      · exact letters d mem
      · exact continues d mem
    have ran : run (.lexeme read) digits = some (.lexeme (read ++ digits), []) :=
      run_lexeme (fun d mem => by simp [continues d mem]) read
    exact ⟨_, run_piece ran takes.2 (if_pos (by rw [word, Bool.true_or])) rest⟩
  | _ => cases takes

end Digits

/-- A text behind which a number can stand, if a character comes next. -/
def Awaits (front : List Char) (next : Char) (before after : List Delimiter) : Prop :=
  ∃ scan tokens, Scan.run .apart front = some (scan, tokens) ∧ scan.takesNumber next = true ∧
    matched before (tokens ++ scan.pending) = some after

instance (front : List Char) (next : Char) (before after : List Delimiter) :
    Decidable (Awaits front next before after) :=
  decidable_of_iff ((Scan.run .apart front).any fun found =>
      found.1.takesNumber next && matched before (found.2 ++ found.1.pending) = some after) <| by
    simp only [Option.any_eq_true, Bool.and_eq_true, decide_eq_true_eq, Awaits]
    constructor
    · rintro ⟨⟨scan, tokens⟩, read, takes, matching⟩
      exact ⟨scan, tokens, read, takes, matching⟩
    · rintro ⟨scan, tokens, read, takes, matching⟩
      exact ⟨(scan, tokens), read, takes, matching⟩

/-- A text that is a number with letters in front of it, or with none. -/
def IsNumbered (letters : List Char) (text : String) : Prop :=
  ∃ number : Nat, text.toList = letters ++ Nat.toDigits 10 number

theorem isNumbered_toString (number : Nat) : IsNumbered [] (toString number) :=
  ⟨number, by rw [Nat.toString_eq_repr, Nat.toList_repr]; rfl⟩

theorem isNumbered_slotField (i : Nat) :
    IsNumbered ['_', 'v', 'a', 'l', 'u', 'e'] (Definition.slotField i) := by
  have letters : "_value".toList = ['_', 'v', 'a', 'l', 'u', 'e'] := by decide
  exact ⟨i, by rw [Definition.slotField, String.toList_append, letters, Nat.toString_eq_repr, Nat.toList_repr]⟩

section Numbers
variable {front rest letters : List Char} {next : Char} {before inner after : List Delimiter} {text : String}

theorem Kept.numbered (numbered : IsNumbered letters text) (begins : Awaits (front ++ letters) next before inner)
    (kept : Kept (next :: rest) inner after) : Kept (front ++ (text.toList ++ next :: rest)) before after := by
  obtain ⟨number, same⟩ := numbered
  obtain ⟨scan, tokens, read, takes, matching⟩ := begins
  obtain ⟨others, readMore, matchingMore⟩ := kept
  have digits : ∀ d ∈ Nat.toDigits 10 number, d.isDigit = true :=
    fun d mem => Nat.isDigit_of_mem_toDigits (by decide) (by decide) mem
  obtain ⟨leaf, readNumber⟩ := Scan.run_number digits takes Nat.toDigits_ne_nil rest
  refine ⟨(tokens ++ scan.pending) ++ (.leaf leaf :: others), ?_, ?_⟩
  · rw [same, List.append_assoc, ← List.append_assoc, Scan.run_append_of_run read, readNumber, readMore]
    simp
  · rw [matched_append, matching]
    exact matchingMore

/-- A row with one number in it, behind brackets that it opens itself. -/
theorem kept_one (numbered : IsNumbered letters text) (inner : List Delimiter)
    (begins : Awaits (front ++ letters) next [] inner := by decide)
    (ends : Kept (next :: rest ++ ['\n']) inner [] := by decide) :
    Kept ((String.ofList front ++ (text ++ String.ofList (next :: rest))).toList ++ ['\n']) [] [] := by
  have kept := ends.numbered numbered begins
  simpa using kept

/-- A row with two of them. -/
theorem kept_two {middle more : List Char} {second : Char} {other : String} (numbered : IsNumbered letters text)
    (numberedToo : IsNumbered more other) (inner deeper : List Delimiter)
    (begins : Awaits (front ++ letters) next [] inner := by decide)
    (goesOn : Awaits (next :: middle ++ more) second inner deeper := by decide)
    (ends : Kept (second :: rest ++ ['\n']) deeper [] := by decide) :
    Kept ((String.ofList front ++ (text ++ (String.ofList (next :: middle) ++
      (other ++ String.ofList (second :: rest))))).toList ++ ['\n']) [] [] := by
  have kept := Kept.numbered numbered begins (ends.numbered numberedToo goesOn)
  simpa using kept

end Numbers

/-! ## Words -/

/-- Whether a word can begin behind a scan. -/
def Scan.takesWord : Scan → Bool
  | .apart | .parenthesis | .mark _ => true
  | _ => false

/-- What a scan has found when a word begins. -/
def Scan.foundBefore : Scan → List Token
  | .parenthesis => [.opening .parenthesis]
  | .mark char => [.leaf (.mark char false)]
  | _ => []

/-- A word is read as one piece in front of a character that breaks it off. -/
theorem Scan.run_word_behind {scan : Scan} (takes : scan.takesWord = true) {word : List Char}
    (isWord : IsWordText word) {next : Char} (breaks : isBreak next = true) (rest : List Char) :
    scan.run (word ++ next :: rest) =
      emit (scan.foundBefore ++ [.leaf (.word (String.ofList word))]) (run .apart (next :: rest)) := by
  obtain ⟨first, letters, same, letter, _⟩ := isWord.exists_cons
  have settled : settle scan first = some scan.foundBefore := by
    have noSlash : first ≠ '/' := ne_of_isIdentContinue letter (by decide)
    have noOperator : operators.contains first = false := by
      rw [← Bool.not_eq_true, List.contains_iff_mem]
      exact fun operator => ne_of_isIdentContinue letter (isIdentContinue_of_mem_operators operator) rfl
    cases scan with
    | apart => rfl
    | parenthesis => simp [settle, foundBefore, noSlash]
    | mark char => simp only [settle, foundBefore, if_neg noSlash, noOperator]
    | _ => cases takes
  have apart := run_word_break isWord breaks rest
  rw [same, List.cons_append] at apart ⊢
  rw [run_of_settle settled, apart, emit_emit]

/-- A text behind which a word can stand. -/
def Reaches (front : List Char) (before after : List Delimiter) : Prop :=
  ∃ scan tokens, Scan.run .apart front = some (scan, tokens) ∧ scan.takesWord = true ∧
    matched before (tokens ++ scan.foundBefore) = some after

instance (front : List Char) (before after : List Delimiter) : Decidable (Reaches front before after) :=
  decidable_of_iff ((Scan.run .apart front).any fun found =>
      found.1.takesWord && matched before (found.2 ++ found.1.foundBefore) = some after) <| by
    simp only [Option.any_eq_true, Bool.and_eq_true, decide_eq_true_eq, Reaches]
    constructor
    · rintro ⟨⟨scan, tokens⟩, read, takes, matching⟩
      exact ⟨scan, tokens, read, takes, matching⟩
    · rintro ⟨scan, tokens, read, takes, matching⟩
      exact ⟨(scan, tokens), read, takes, matching⟩

section Words
variable {front middle rest : List Char} {next second : Char} {before inner deeper after : List Delimiter}
  {word : String} (isWord : IsWordText word.toList)
include isWord

theorem Kept.worded (begins : Reaches front before inner) (breaks : isBreak next = true)
    (kept : Kept (next :: rest) inner after) : Kept (front ++ (word.toList ++ next :: rest)) before after := by
  obtain ⟨scan, tokens, read, takes, matching⟩ := begins
  obtain ⟨others, readMore, matchingMore⟩ := kept
  refine ⟨tokens ++ scan.foundBefore ++ (.leaf (.word (String.ofList word.toList)) :: others), ?_, ?_⟩
  · rw [Scan.run_append_of_run read, Scan.run_word_behind takes isWord breaks, readMore]
    simp
  · rw [matched_append, matching]
    exact matchingMore

/-- A row with a word in it. -/
theorem kept_word (inner : List Delimiter) (begins : Reaches front [] inner := by decide)
    (breaks : isBreak next = true := by decide) (ends : Kept (next :: rest ++ ['\n']) inner after := by decide) :
    Kept ((String.ofList front ++ (word ++ String.ofList (next :: rest))).toList ++ ['\n']) [] after := by
  have kept := ends.worded isWord begins breaks
  simpa using kept

/-- A row with the same word twice. -/
theorem kept_word_twice (inner deeper : List Delimiter) (begins : Reaches front [] inner := by decide)
    (breaks : isBreak next = true := by decide) (goesOn : Reaches (next :: middle) inner deeper := by decide)
    (breaksToo : isBreak second = true := by decide)
    (ends : Kept (second :: rest ++ ['\n']) deeper after := by decide) :
    Kept ((String.ofList front ++ (word ++ (String.ofList (next :: middle) ++
      (word ++ String.ofList (second :: rest))))).toList ++ ['\n']) [] after := by
  have later : Kept (next :: (middle ++ (word.toList ++ (second :: rest ++ ['\n'])))) inner after :=
    ends.worded isWord goesOn breaksToo
  have kept := later.worded isWord begins breaks
  simpa using kept

/-- A row with a number and a word. -/
theorem kept_number_word {letters : List Char} {text : String} (numbered : IsNumbered letters text)
    (inner deeper : List Delimiter) (begins : Awaits (front ++ letters) next [] inner := by decide)
    (goesOn : Reaches (next :: middle) inner deeper := by decide) (breaks : isBreak second = true := by decide)
    (ends : Kept (second :: rest ++ ['\n']) deeper [] := by decide) :
    Kept ((String.ofList front ++ (text ++ (String.ofList (next :: middle) ++
      (word ++ String.ofList (second :: rest))))).toList ++ ['\n']) [] [] := by
  have later : Kept (next :: (middle ++ (word.toList ++ (second :: rest ++ ['\n'])))) inner [] :=
    ends.worded isWord goesOn breaks
  have kept := later.numbered numbered begins
  simpa using kept

omit isWord in
/-- What belongs to no word stands in none. -/
theorem not_mem_of_isWordText {letters : List Char} (isWord : IsWordText letters) {c : Char}
    (breaks : isIdentContinue c = false) (noHash : c ≠ '#') : c ∉ letters := by
  obtain ⟨first, others, rfl, letter, goesOn⟩ := isWord.exists_cons
  intro mem
  rcases List.mem_cons.mp mem with rfl | mem
  · rw [breaks] at letter
    cases letter
  · rcases goesOn c mem with letter | hash
    · rw [breaks] at letter
      cases letter
    · exact noHash hash

end Words

/-! ## Documentation -/

/-- Text that a documenting comment can hold. -/
def IsRemark (text : String) : Prop := '\n' ∉ text.toList ∧ '\r' ∉ text.toList

theorem IsRemark.literal {chars : List Char} (clean : '\n' ∉ chars ∧ '\r' ∉ chars := by decide) :
    IsRemark (String.ofList chars) := by
  rw [IsRemark, String.toList_ofList]
  exact clean

theorem IsRemark.append {text more : String} (clean : IsRemark text) (cleanMore : IsRemark more) :
    IsRemark (text ++ more) := by
  rw [IsRemark, String.toList_append, List.mem_append, List.mem_append, not_or, not_or]
  exact ⟨⟨clean.1, cleanMore.1⟩, clean.2, cleanMore.2⟩

theorem isRemark_toString (number : Nat) : IsRemark (toString number) := by
  have digits : ∀ d ∈ (toString number).toList, d.isDigit = true := by
    rw [Nat.toString_eq_repr, Nat.toList_repr]
    exact fun d mem => Nat.isDigit_of_mem_toDigits (by decide) (by decide) mem
  exact ⟨fun mem => absurd (digits _ mem) (by decide), fun mem => absurd (digits _ mem) (by decide)⟩

theorem isRemark_of_isWordText {word : String} (isWord : IsWordText word.toList) : IsRemark word :=
  ⟨not_mem_of_isWordText isWord (by decide) (by decide), not_mem_of_isWordText isWord (by decide) (by decide)⟩

private theorem Scan.run_document {body : List Char} (clean : '\n' ∉ body) (noReturn : '\r' ∉ body)
    (read : List Char) : run (.document read) body = some (.document (read ++ body), []) := by
  induction body generalizing read with
  | nil => rw [List.append_nil, run_nil]
  | cons c body ih =>
    rw [List.mem_cons, not_or] at clean noReturn
    have stepped : step (.document read) c = some (.document (read ++ [c]), []) := by
      simp [step, settle, absorb, Ne.symm clean.1, Ne.symm noReturn.1]
    rw [run_cons, stepped, Option.bind_some, emit_nil, ih clean.2 noReturn.2, List.append_assoc]
    rfl

/-- A documenting comment is read as the attribute it stands for. -/
theorem spells_remark {text : String} (remark : IsRemark text) :
    Spells ('/' :: '/' :: '/' :: ' ' :: text.toList ++ ['\n']) (documentTokens false (' ' :: text.toList)) := by
  have opened : Scan.run .apart ['/', '/', '/', ' '] = some (.document [' '], []) := by decide
  have feed : Scan.step (.document ([' '] ++ text.toList)) '\n' =
      some (.apart, documentTokens false (' ' :: text.toList)) := rfl
  have whole : '/' :: '/' :: '/' :: ' ' :: text.toList ++ ['\n'] =
      ['/', '/', '/', ' '] ++ (text.toList ++ ['\n']) := rfl
  rw [Spells, whole, Scan.run_append_of_run opened, Scan.emit_nil,
    Scan.run_append_of_run (Scan.run_document remark.1 remark.2 _), Scan.emit_nil, Scan.run_cons, feed]
  simp [Scan.run_nil]

/-- It keeps what is open: the attribute has its own brackets. -/
theorem kept_remark {front : List Char} {text : String} (remark : IsRemark text)
    (begins : IsRemark (String.ofList front) := by exact .literal) :
    Kept ((String.ofList ('/' :: '/' :: '/' :: ' ' :: front) ++ text).toList ++ ['\n']) [] [] := by
  have spells := spells_remark (begins.append remark)
  rw [String.toList_append, String.toList_ofList] at spells ⊢
  exact ⟨_, spells, rfl⟩

/-! ## Names -/

/-- A row with a name in it: what comes behind the name is lost if the name leaves a comment open. -/
theorem takes_named {name : String} (named : isIdentifier name = true) {front back : List Char}
    {next : Char} {opened : List Delimiter} (begins : Kept front [] [])
    (goesOn : isBreak next = true ∧ (next ≠ '/' ∧ next ≠ '!') ∧ '\n' ∉ next :: back)
    (kept : Kept (next :: back ++ ['\n']) [] opened)
    (before : List Delimiter) :
    Takes (isPasteable name = true) opened.length
      (front ++ (name.toList ++ (next :: back ++ ['\n']))) before (opened ++ before) := by
  obtain ⟨tokens, read, matching⟩ := begins
  obtain ⟨breaks, ordinary, row⟩ := goesOn
  constructor
  · intro pasteable
    obtain ⟨word, readName⟩ := Scan.run_of_isPasteable named pasteable
    obtain ⟨others, readMore, matchingMore⟩ := kept
    have whole : Kept (front ++ (name.toList ++ (next :: back ++ ['\n']))) [] opened := by
      refine ⟨tokens ++ (.leaf (.word word) :: others), ?_, ?_⟩
      · rw [Scan.run_append_of_run read, List.cons_append, readName next _ breaks, ← List.cons_append,
          readMore]
        rfl
      · rw [matched_append, matching]
        exact matchingMore
    exact whole.frame before
  · intro unpasteable
    have balanced := length_of_matched matching
    rcases Scan.run_of_not_isPasteable named (Bool.eq_false_iff.mpr unpasteable) with
      ⟨rest, marked⟩ | ⟨word, scan, note, readName⟩
    · have stuck : Scan.step .apart TokenTree.byteOrderMark = some (.stuck, []) := by decide +kernel
      refine ⟨.stuck, tokens, ?_, .inl rfl⟩
      rw [Scan.run_append_of_run read, marked, List.cons_append, Scan.run_cons, stuck, Option.bind_some,
        Scan.emit_nil, Scan.run_stuck, Scan.emit_some, List.append_nil]
    · refine ⟨.apart, tokens ++ [.leaf (.word word)], ?_, .inr ⟨rfl, ?_⟩⟩
      · rw [Scan.run_append_of_run read, Scan.run_append_of_run readName, Scan.run_swallowed note row ordinary]
        rfl
      · rw [openings_append, closings_append, List.length_append]
        simp only [openings, closings, List.countP_singleton, Token.isOpening, Token.isClosing,
          List.length_nil] at balanced ⊢
        simp only [Bool.false_eq_true, ↓reduceIte]
        omega

/-- A row that opens a block of something named, and loses it if the name leaves a comment open. -/
theorem takes_opening {name : String} (named : isIdentifier name = true) {front back : List Char} {next : Char}
    (before : List Delimiter) (begins : Kept front [] [] := by decide)
    (goesOn : isBreak next = true ∧ (next ≠ '/' ∧ next ≠ '!') ∧ '\n' ∉ next :: back := by decide)
    (opens : Kept (next :: back ++ ['\n']) [] [.brace] := by decide) :
    Takes (isPasteable name = true) 1
      ((String.ofList front ++ (name ++ String.ofList (next :: back))).toList ++ ['\n'])
      before (.brace :: before) := by
  simpa using takes_named named begins goesOn opens before

/-- A row that opens a block of something named that has a parameter. -/
theorem takes_typed {word name : String} (isWord : IsWordText word.toList) (named : isIdentifier name = true)
    {front back ends : List Char} {next last : Char} (before : List Delimiter) (begins : Kept front [] [])
    (goesOn : isBreak next = true ∧ (next ≠ '/' ∧ next ≠ '!') ∧ '\n' ∉ next :: back := by decide)
    (reaches : Reaches (next :: back) [] [] := by decide)
    (breaks : isBreak last = true ∧ '\n' ∉ last :: ends := by decide)
    (opens : Kept (last :: ends ++ ['\n']) [] [.brace] := by decide) :
    Takes (isPasteable name = true) 1
      (front ++ (name.toList ++ (next :: (back ++ (word.toList ++ last :: ends)) ++ ['\n'])))
      before (.brace :: before) := by
  have clean : '\n' ∉ next :: (back ++ (word.toList ++ last :: ends)) := by
    rw [← List.cons_append, List.mem_append, List.mem_append, not_or, not_or]
    exact ⟨goesOn.2.2, not_mem_of_isWordText isWord (by decide) (by decide), breaks.2⟩
  have kept : Kept (next :: (back ++ (word.toList ++ last :: ends)) ++ ['\n']) [] [.brace] := by
    have typed : Kept (next :: back ++ (word.toList ++ last :: (ends ++ ['\n']))) [] [.brace] :=
      opens.worded isWord reaches breaks.1
    simpa using typed
  exact takes_named named begins ⟨goesOn.1, goesOn.2.1, clean⟩ kept before

/-! ## Rows -/

/-- What rows do, each with its line feed. -/
def TakesRows (sound : Prop) (rows : List String) (before after : List Delimiter) : Prop :=
  Takes sound 0 (unlines (rows.map String.toList)) before after

namespace TakesRows
variable {sound : Prop} {row : String} {rows more : List String} {before between after : List Delimiter}

theorem nil : TakesRows sound [] before before := (kept_nil before).takes

theorem cons (takes : Takes sound 0 (row.toList ++ ['\n']) before between)
    (rest : TakesRows sound rows between after) : TakesRows sound (row :: rows) before after := by
  have split : unlines ((row :: rows).map String.toList) =
      (row.toList ++ ['\n']) ++ unlines (rows.map String.toList) := rfl
  rw [TakesRows, split]
  exact takes.append rest

theorem append (takes : TakesRows sound rows before between) (rest : TakesRows sound more between after) :
    TakesRows sound (rows ++ more) before after := by
  rw [TakesRows, List.map_append, unlines_append]
  exact Takes.append takes rest

/-- A row that changes nothing. -/
theorem keeping (kept : Kept (row.toList ++ ['\n']) [] []) (rest : TakesRows sound rows before after) :
    TakesRows sound (row :: rows) before after :=
  cons (kept.frame before).takes rest

section Literal
variable {chars : List Char}

theorem plain (rest : TakesRows sound rows before after)
    (kept : Kept (chars ++ ['\n']) [] [] := by decide) :
    TakesRows sound (String.ofList chars :: rows) before after :=
  keeping (by rwa [String.toList_ofList]) rest

theorem opening (rest : TakesRows sound rows (.brace :: before) after)
    (kept : Kept (chars ++ ['\n']) [] [.brace] := by decide) :
    TakesRows sound (String.ofList chars :: rows) before after := by
  refine cons (Kept.takes ?_) rest
  rw [String.toList_ofList]
  exact kept.frame before

theorem closing (rest : TakesRows sound rows before after)
    (kept : Kept (chars ++ ['\n']) [.brace] [] := by decide) :
    TakesRows sound (String.ofList chars :: rows) (.brace :: before) after := by
  refine cons (Kept.takes ?_) rest
  rw [String.toList_ofList]
  exact kept.frame before

end Literal

section Holes
variable {front back : List Char} {next : Char}

/-- A row that opens a block of something named. -/
theorem named {name : String} (named : isIdentifier name = true)
    (rest : TakesRows (isPasteable name = true) rows (.brace :: before) after)
    (begins : Kept front [] [] := by decide)
    (goesOn : isBreak next = true ∧ (next ≠ '/' ∧ next ≠ '!') ∧ '\n' ∉ next :: back := by decide)
    (opens : Kept (next :: back ++ ['\n']) [] [.brace] := by decide) :
    TakesRows (isPasteable name = true)
      ((String.ofList front ++ (name ++ String.ofList (next :: back))) :: rows) before after :=
  cons ((takes_opening named before begins goesOn opens).weaken (Nat.zero_le _)) rest

/-- A row that calls something named. -/
theorem call {name : String} (named : isIdentifier name = true)
    (rest : TakesRows (isPasteable name = true) rows before after)
    (begins : Kept front [] [] := by decide)
    (goesOn : isBreak next = true ∧ (next ≠ '/' ∧ next ≠ '!') ∧ '\n' ∉ next :: back := by decide)
    (balanced : Kept (next :: back ++ ['\n']) [] [] := by decide) :
    TakesRows (isPasteable name = true)
      ((String.ofList front ++ (name ++ String.ofList (next :: back))) :: rows) before after := by
  have takes := takes_named named begins goesOn balanced before
  refine cons ?_ rest
  simpa using takes

end Holes

section Words
variable {front middle back ends : List Char} {next second last : Char} {word : String}
  (isWord : IsWordText word.toList)
include isWord

/-- A row with a word in it, behind which brackets may be open. -/
theorem worded (inner opened : List Delimiter) (rest : TakesRows sound rows (opened ++ before) after)
    (begins : Reaches front [] inner := by decide) (breaks : isBreak next = true := by decide)
    (ends : Kept (next :: back ++ ['\n']) inner opened := by decide) :
    TakesRows sound ((String.ofList front ++ (word ++ String.ofList (next :: back))) :: rows) before after :=
  cons ((kept_word isWord inner begins breaks ends).frame before).takes rest

/-- A row with the same word twice. -/
theorem wordedTwice (inner deeper opened : List Delimiter) (rest : TakesRows sound rows (opened ++ before) after)
    (begins : Reaches front [] inner := by decide) (breaks : isBreak next = true := by decide)
    (goesOn : Reaches (next :: middle) inner deeper := by decide) (breaksToo : isBreak second = true := by decide)
    (ends : Kept (second :: back ++ ['\n']) deeper opened := by decide) :
    TakesRows sound ((String.ofList front ++ (word ++ (String.ofList (next :: middle) ++
      (word ++ String.ofList (second :: back))))) :: rows) before after :=
  cons ((kept_word_twice isWord inner deeper begins breaks goesOn breaksToo ends).frame before).takes rest

/-- A row that opens the implementation of something for a type with a parameter. -/
theorem implemented {name : String} (named : isIdentifier name = true)
    (rest : TakesRows (isPasteable name = true) rows (.brace :: before) after)
    (begins : Reaches front [] [] := by decide) (breaks : isBreak next = true := by decide)
    (between : Kept (next :: middle) [] [] := by decide)
    (goesOn : isBreak second = true ∧ (second ≠ '/' ∧ second ≠ '!') ∧ '\n' ∉ second :: back := by decide)
    (reaches : Reaches (second :: back) [] [] := by decide)
    (breaksToo : isBreak last = true ∧ '\n' ∉ last :: ends := by decide)
    (opens : Kept (last :: ends ++ ['\n']) [] [.brace] := by decide) :
    TakesRows (isPasteable name = true)
      ((String.ofList front ++ (word ++ (String.ofList (next :: middle) ++ (name ++
        (String.ofList (second :: back) ++ (word ++ String.ofList (last :: ends))))))) :: rows) before after := by
  have takes := takes_typed isWord named before (between.worded isWord begins breaks) goesOn reaches breaksToo opens
  refine cons (Takes.weaken ?_ (Nat.zero_le 1)) rest
  simpa using takes

end Words

/-- Rows for one slot after another. -/
theorem slots {line : Nat → String} (kept : ∀ i, Kept ((line i).toList ++ ['\n']) [] []) (count : Nat)
    (stack : List Delimiter) : TakesRows sound ((List.range count).map line) stack stack := by
  induction count with
  | zero => exact nil
  | succ count ih =>
    rw [List.range_succ, List.map_append]
    exact ih.append (keeping (kept count) nil)

end TakesRows

end SlotArray.Source
