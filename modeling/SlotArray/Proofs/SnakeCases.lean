import SlotArray.Proofs.Segments
import SlotArray.Proofs.Splits

/-! Snake case done twice. The words of a text come out in small letters with single underscores
between, and such a text is cut into the same words again: none of its letters is a capital, so a word
ends only where an underscore does. -/
namespace SlotArray.Text

/-- A word in snake case: at least one character, all of them small letters and digits. -/
def IsSmallWord (word : List Char) : Prop := word ≠ [] ∧ ∀ c ∈ word, isSmall c = true

/-- Words are cut off after they have begun: a case is known of letters only. -/
theorem ne_nil_of_mem_runWords {case : LetterCase} {word run piece : List Char}
    (begun : case ≠ .none → word ≠ []) (mem : piece ∈ runWords case word run) : piece ≠ [] := by
  fun_induction runWords case word run with
  | case1 => exact absurd mem List.not_mem_nil
  | case2 case word filled =>
    rw [List.mem_singleton.mp mem]
    simpa using filled
  | case3 case word last =>
    rw [List.mem_singleton.mp mem]
    exact List.append_ne_nil_of_right_ne_nil _ (List.cons_ne_nil _ _)
  | case4 case word first second rest ends ih =>
    rcases List.mem_cons.mp mem with rfl | mem
    · exact List.append_ne_nil_of_right_ne_nil _ (List.cons_ne_nil _ _)
    · exact ih (fun known => absurd rfl known) mem
  | case5 case word first second rest goesOn ends ih =>
    rcases List.mem_cons.mp mem with rfl | mem
    · apply begun
      rintro rfl
      exact absurd ends (by simp)
    · exact ih (fun known => absurd rfl known) mem
  | case6 case word first second rest goesOn still ih =>
    exact ih (fun _ => List.append_ne_nil_of_right_ne_nil _ (List.cons_ne_nil _ _)) mem

/-- The words of a text, in lower case. -/
theorem isSmallWord_of_mem_words {text word : List Char} (mem : word ∈ words text) :
    IsSmallWord (word.map Char.toLower) := by
  obtain ⟨run, cut, ofRun⟩ := List.mem_flatMap.mp mem
  refine ⟨?_, ?_⟩
  · rw [Ne, List.map_eq_nil_iff]
    exact ne_nil_of_mem_runWords (fun known => absurd rfl known) ofRun
  · intro c inside
    obtain ⟨letter, ofWord, rfl⟩ := List.mem_map.mp inside
    apply isSmall_toLower
    rcases mem_of_mem_runWords ofRun ofWord with inside | inside
    · exact nomatch inside
    · simpa using not_separator_of_mem_splitWhere cut inside

/-- Without capitals a run is one word, whatever case it began with. -/
theorem runWords_of_small {case : LetterCase} {word run : List Char} (lower : case ≠ .upper)
    (filled : word ++ run ≠ []) (small : ∀ c ∈ run, isSmall c = true) :
    runWords case word run = [word ++ run] := by
  fun_induction runWords case word run with
  | case1 case word empty => simp at empty filled; exact absurd empty filled
  | case2 => rw [List.append_nil]
  | case3 => rfl
  | case4 case word first second rest ends ih =>
    have noCapital := (toLower_of_isSmall (small second (by simp))).2
    rw [noCapital] at ends
    simp at ends
  | case5 case word first second rest goesOn ends ih =>
    simp only [Bool.and_eq_true, decide_eq_true_eq] at ends
    exact absurd ends.1.1 lower
  | case6 case word first second rest goesOn still ih =>
    have noCapital := (toLower_of_isSmall (small first (by simp))).2
    have lowerStill : case.next first ≠ .upper := by
      rw [LetterCase.next, noCapital]
      split
      · decide
      · exact lower
    rw [ih lowerStill (by simp) fun c mem => small c (List.mem_cons_of_mem _ mem), List.append_assoc,
      List.singleton_append]

theorem IsSmallWord.not_separator {word : List Char} (isSmallWord : IsSmallWord word) :
    ∀ c ∈ word, (!c.isAlphanum) = false := by
  intro c mem
  rw [isAlphanum_of_isSmall (isSmallWord.2 c mem)]
  rfl

theorem IsSmallWord.map_toLower {word : List Char} (isSmallWord : IsSmallWord word) :
    word.map Char.toLower = word :=
  (List.map_congr_left fun c mem => (toLower_of_isSmall (isSmallWord.2 c mem)).1).trans
    (List.map_id word)

/-- Underscores between words are where the words are cut. -/
theorem words_intercalate {parts : List (List Char)} (small : ∀ word ∈ parts, IsSmallWord word) :
    words (['_'].intercalate parts) = parts := by
  induction parts with
  | nil => rfl
  | cons first rest ih =>
    have smallFirst := small first List.mem_cons_self
    have smallRest : ∀ word ∈ rest, IsSmallWord word := fun word mem =>
      small word (List.mem_cons_of_mem _ mem)
    have lower : LetterCase.none ≠ .upper := by decide
    have one : runWords .none [] first = [[] ++ first] :=
      runWords_of_small lower smallFirst.1 smallFirst.2
    rw [List.nil_append] at one
    cases rest with
    | nil =>
      rw [List.intercalate_singleton, words, splitWhere_of_clean smallFirst.not_separator,
        List.flatMap_singleton, one]
    | cons second others =>
      have onward := ih smallRest
      rw [words] at onward
      rw [List.intercalate_cons_cons, List.append_assoc, List.singleton_append, words,
        splitWhere_append smallFirst.not_separator (by decide), List.flatMap_cons, onward, one,
        List.singleton_append]

/-- What is spelled in snake case stays as it is. -/
theorem snakeCase_intercalate {parts : List (List Char)} (small : ∀ word ∈ parts, IsSmallWord word) :
    snakeCase (['_'].intercalate parts) = ['_'].intercalate parts := by
  have same : parts.map (fun word => word.map Char.toLower) = parts :=
    (List.map_congr_left fun word mem => (small word mem).map_toLower).trans (List.map_id parts)
  rw [snakeCase, words_intercalate small, same]

end SlotArray.Text
