import SlotArray.Proofs.Tokens.Pasting

/-! Brackets across the stretches of a text. Every stretch takes what is open in front of it to what
is open behind it, and a text has token trees when nothing is left open behind the whole of it. A
stretch that lost some of its opening brackets cannot be made up for by what comes before or
after. -/
namespace SlotArray.Source
open SlotArray.Text

/-- What is open behind tokens, the innermost first, or `none` when they close what is not open. -/
def matched : List Delimiter → List Token → Option (List Delimiter)
  | stack, [] => some stack
  | stack, .leaf _ :: rest => matched stack rest
  | stack, .opening delimiter :: rest => matched (delimiter :: stack) rest
  | [], .closing _ :: _ => none
  | inner :: outer, .closing delimiter :: rest =>
    if inner = delimiter then matched outer rest else none

theorem matched_append (stack : List Delimiter) (tokens more : List Token) :
    matched stack (tokens ++ more) = (matched stack tokens).bind (matched · more) := by
  fun_induction matched stack tokens with
  | case1 stack => rfl
  | case2 stack inner rest ih => exact ih
  | case3 stack delimiter rest ih => exact ih
  | case4 => rfl
  | case5 outer delimiter rest ih => rw [List.cons_append, matched, if_pos rfl, ih]
  | case6 inner outer delimiter rest other => rw [List.cons_append, matched, if_neg other]; rfl

/-- Whether marks are joined changes nothing about brackets. -/
theorem matched_ended_append (stack : List Delimiter) (tokens more : List Token) :
    matched stack (Token.ended tokens ++ more) = matched stack (tokens ++ more) := by
  fun_induction Token.ended tokens generalizing stack with
  | case1 => rfl
  | case2 => rfl
  | case3 token rest _ ih =>
    cases token with
    | leaf inner => exact ih stack
    | opening delimiter => exact ih (delimiter :: stack)
    | closing delimiter =>
      cases stack with
      | nil => rfl
      | cons inner outer =>
        by_cases same : inner = delimiter
        · rw [List.cons_append, List.cons_append, matched, matched, if_pos same, if_pos same, ih]
        · rw [List.cons_append, List.cons_append, matched, matched, if_neg same, if_neg same]

mutual
/-- A tree closes the brackets that it opens. -/
theorem matched_tree (tree : TokenTree) (stack : List Delimiter) (more : List Token) :
    matched stack (tree.tokens ++ more) = matched stack more := by
  cases tree with
  | leaf inner span => rfl
  | group delimiter content span =>
    have inside := matched_trees content (delimiter :: stack) (.closing delimiter :: more)
    have closes : matched (delimiter :: stack) (.closing delimiter :: more) = matched stack more := if_pos rfl
    rw [TokenTree.tokens, List.cons_append, List.append_assoc, matched]
    exact inside.trans closes
  | invisible content span =>
    rw [TokenTree.tokens, matched_ended_append, matched_trees content stack more]

/-- So do trees that stand one after another. -/
theorem matched_trees (trees : List TokenTree) (stack : List Delimiter) (more : List Token) :
    matched stack (TokenTree.flatten trees ++ more) = matched stack more := by
  cases trees with
  | nil => rfl
  | cons tree rest =>
    rw [TokenTree.flatten, List.append_assoc, matched_tree tree stack, matched_trees rest stack]
end

/-- Brackets that match go on matching inside others. -/
theorem matched_frame {stack left : List Delimiter} {tokens : List Token}
    (matching : matched stack tokens = some left) (outer : List Delimiter) :
    matched (stack ++ outer) tokens = some (left ++ outer) := by
  fun_induction matched stack tokens with
  | case1 stack =>
    cases matching
    rfl
  | case2 stack inner rest ih => exact ih matching
  | case3 stack delimiter rest ih => exact ih matching
  | case4 => cases matching
  | case5 inner delimiter rest ih =>
    rw [List.cons_append, matched, if_pos rfl]
    exact ih matching
  | case6 => cases matching

/-- Whether a bracket opens a group. -/
def Token.isOpening : Token → Bool
  | .opening _ => true
  | _ => false

/-- Whether a bracket closes a group. -/
def Token.isClosing : Token → Bool
  | .closing _ => true
  | _ => false

def openings (tokens : List Token) : Nat := tokens.countP Token.isOpening

def closings (tokens : List Token) : Nat := tokens.countP Token.isClosing

theorem openings_append (tokens more : List Token) :
    openings (tokens ++ more) = openings tokens + openings more :=
  List.countP_append

theorem closings_append (tokens more : List Token) :
    closings (tokens ++ more) = closings tokens + closings more :=
  List.countP_append

/-- Every bracket that is opened is closed or left open. -/
theorem length_of_matched {stack left : List Delimiter} {tokens : List Token}
    (matching : matched stack tokens = some left) :
    stack.length + openings tokens = left.length + closings tokens := by
  fun_induction matched stack tokens with
  | case1 stack =>
    cases matching
    rfl
  | case2 stack inner rest ih =>
    have counted := ih matching
    simpa [openings, closings, Token.isOpening, Token.isClosing] using counted
  | case3 stack delimiter rest ih =>
    have counted := ih matching
    simp only [openings, closings, List.length_cons, List.countP_cons, Token.isOpening,
      Token.isClosing] at counted ⊢
    simp only [↓reduceIte, Bool.false_eq_true]
    omega
  | case4 => cases matching
  | case5 inner delimiter rest ih =>
    have counted := ih matching
    simp only [openings, closings, List.length_cons, List.countP_cons, Token.isOpening,
      Token.isClosing] at counted ⊢
    simp only [↓reduceIte, Bool.false_eq_true]
    omega
  | case6 => cases matching

/-! ## Token trees -/

theorem isSome_build_iff {stack : List TokenTree.Open} {before : List TokenTree}
    {tokens : List (Token × Span)} :
    (TokenTree.build stack before tokens).isSome = true ↔
      matched (stack.map TokenTree.Open.delimiter) (tokens.map Prod.fst) = some [] := by
  fun_induction TokenTree.build stack before tokens with
  | case1 before => simp [matched]
  | case2 before inner outer => simp [matched]
  | case3 stack before inner span rest ih => exact ih
  | case4 stack before delimiter span rest ih => exact ih
  | case5 before delimiter span rest => simp [matched]
  | case6 before span rest inner outer ih =>
    rw [ih]
    simp [matched]
  | case7 before delimiter span rest inner outer other => simp [matched, other]

/-- A text has token trees when it has tokens and their brackets match. -/
theorem isSome_ofText?_iff (text : String) : (TokenTree.ofText? text).isSome = true ↔
    ∃ tokens, tokens? (afterMark text.toList) = some tokens ∧ matched [] tokens = some [] := by
  unfold TokenTree.ofText? tokens?
  have same : (if text.toList.head? = some TokenTree.byteOrderMark then text.toList.tail
      else text.toList) = afterMark text.toList := rfl
  simp only [same]
  cases Piece.ofText (afterMark text.toList) with
  | none => simp
  | some pieces => simp [isSome_build_iff, map_fst_placed]

/-! ## Stretches -/

/-- A text is read as certain tokens, from between two pieces to between two others. -/
def Spells (text : List Char) (tokens : List Token) : Prop :=
  Scan.run .apart text = some (.apart, tokens)

instance (text : List Char) (tokens : List Token) : Decidable (Spells text tokens) :=
  inferInstanceAs (Decidable (_ = _))

namespace Spells
variable {text more : List Char} {tokens others : List Token}

theorem append (spells : Spells text tokens) (spellsMore : Spells more others) :
    Spells (text ++ more) (tokens ++ others) := by
  rw [Spells, Scan.run_append_of_run spells, spellsMore]
  rfl

theorem feed (spells : Spells text tokens) : Spells ('\n' :: text) tokens :=
  (Scan.run_feed text).trans spells

theorem indent (spells : Spells text tokens) (depth : Nat) : Spells (Text.indent depth text) tokens :=
  (Scan.run_indent .apart depth text).trans spells

end Spells

/-- A text that is read from between two pieces to between two others, and takes the brackets that
are open in front of it to those open behind it. -/
def Kept (text : List Char) (before after : List Delimiter) : Prop :=
  ∃ tokens, Scan.run .apart text = some (.apart, tokens) ∧ matched before tokens = some after

/-- A text that leaves fewer brackets open than it should, by a number at least, or where no piece
can be read. -/
def Short (missing : Nat) (text : List Char) (before after : List Delimiter) : Prop :=
  ∃ scan tokens, Scan.run .apart text = some (scan, tokens) ∧ (scan = .stuck ∨ scan = .apart ∧
    before.length + openings tokens + missing ≤ after.length + closings tokens)

instance (text : List Char) (before after : List Delimiter) : Decidable (Kept text before after) :=
  decidable_of_iff ((Scan.run .apart text).any fun found =>
      found.1 = .apart && matched before found.2 = some after) <| by
    simp only [Option.any_eq_true, Bool.and_eq_true, decide_eq_true_eq, Kept]
    constructor
    · rintro ⟨⟨_, tokens⟩, read, rfl, matching⟩
      exact ⟨tokens, read, matching⟩
    · rintro ⟨tokens, read, matching⟩
      exact ⟨(.apart, tokens), read, rfl, matching⟩

section Stretches
variable {text more : List Char} {before between after : List Delimiter}

theorem kept_nil (stack : List Delimiter) : Kept [] stack stack := ⟨[], rfl, rfl⟩

theorem Kept.append (kept : Kept text before between) (keptMore : Kept more between after) :
    Kept (text ++ more) before after := by
  obtain ⟨tokens, read, matching⟩ := kept
  obtain ⟨others, readMore, matchingMore⟩ := keptMore
  refine ⟨tokens ++ others, Spells.append read readMore, ?_⟩
  rw [matched_append, matching]
  exact matchingMore

/-- What a text does to brackets does not depend on those further out. -/
theorem Kept.frame (kept : Kept text before after) (outer : List Delimiter) :
    Kept text (before ++ outer) (after ++ outer) := by
  obtain ⟨tokens, read, matching⟩ := kept
  exact ⟨tokens, read, matched_frame matching outer⟩

theorem Kept.feed (kept : Kept text before after) : Kept ('\n' :: text) before after := by
  obtain ⟨tokens, read, matching⟩ := kept
  exact ⟨tokens, Spells.feed read, matching⟩

theorem Kept.indent (kept : Kept text before after) (depth : Nat) :
    Kept (Text.indent depth text) before after := by
  obtain ⟨tokens, read, matching⟩ := kept
  exact ⟨tokens, Spells.indent read depth, matching⟩

theorem Kept.short (kept : Kept text before after) : Short 0 text before after := by
  obtain ⟨tokens, read, matching⟩ := kept
  exact ⟨.apart, tokens, read, .inr ⟨rfl, Nat.le_of_eq (length_of_matched matching)⟩⟩

theorem Short.weaken {missing fewer : Nat} (short : Short missing text before after)
    (le : fewer ≤ missing) : Short fewer text before after := by
  obtain ⟨scan, tokens, read, stuck | ⟨apart, counted⟩⟩ := short
  · exact ⟨scan, tokens, read, .inl stuck⟩
  · exact ⟨scan, tokens, read, .inr ⟨apart, by omega⟩⟩

theorem Short.frame {missing : Nat} (short : Short missing text before after) (outer : List Delimiter) :
    Short missing text (before ++ outer) (after ++ outer) := by
  obtain ⟨scan, tokens, read, stuck | ⟨apart, counted⟩⟩ := short
  · exact ⟨scan, tokens, read, .inl stuck⟩
  · refine ⟨scan, tokens, read, .inr ⟨apart, ?_⟩⟩
    rw [List.length_append, List.length_append]
    omega

theorem Short.feed {missing : Nat} (short : Short missing text before after) :
    Short missing ('\n' :: text) before after := by
  obtain ⟨scan, tokens, read, ends⟩ := short
  exact ⟨scan, tokens, (Scan.run_feed text).trans read, ends⟩

theorem Short.indent {missing : Nat} (short : Short missing text before after) (depth : Nat) :
    Short missing (Text.indent depth text) before after := by
  obtain ⟨scan, tokens, read, ends⟩ := short
  exact ⟨scan, tokens, (Scan.run_indent .apart depth text).trans read, ends⟩

theorem Short.append {missing missingMore : Nat} (short : Short missing text before between)
    (shortMore : Short missingMore more between after) :
    Short (missing + missingMore) (text ++ more) before after := by
  obtain ⟨_, tokens, read, rfl | ⟨rfl, counted⟩⟩ := short
  · refine ⟨.stuck, tokens, ?_, .inl rfl⟩
    rw [Scan.run_append_of_run read, Scan.run_stuck, Scan.emit_some, List.append_nil]
  · obtain ⟨scan, others, readMore, ends⟩ := shortMore
    refine ⟨scan, tokens ++ others, ?_, ?_⟩
    · rw [Scan.run_append_of_run read, readMore]
      rfl
    · rcases ends with stuck | ⟨apart, countedMore⟩
      · exact .inl stuck
      · rw [openings_append, closings_append]
        exact .inr ⟨apart, by omega⟩

end Stretches

/-- A text that is kept as it should be where something holds, and misses brackets where not. -/
structure Takes (sound : Prop) (missing : Nat) (text : List Char) (before after : List Delimiter) :
    Prop where
  kept : sound → Kept text before after
  short : ¬ sound → Short missing text before after

section Takes
variable {sound : Prop} {missing missingMore : Nat} {text more : List Char}
  {before between after : List Delimiter}

theorem Kept.takes (kept : Kept text before after) : Takes sound 0 text before after :=
  ⟨fun _ => kept, fun _ => kept.short⟩

theorem Takes.append (takes : Takes sound missing text before between)
    (takesMore : Takes sound missingMore more between after) :
    Takes sound (missing + missingMore) (text ++ more) before after :=
  ⟨fun holds => (takes.kept holds).append (takesMore.kept holds),
    fun fails => (takes.short fails).append (takesMore.short fails)⟩

theorem Takes.weaken {fewer : Nat} (takes : Takes sound missing text before after)
    (le : fewer ≤ missing) : Takes sound fewer text before after :=
  ⟨takes.kept, fun fails => (takes.short fails).weaken le⟩

theorem Takes.frame (takes : Takes sound missing text before after) (outer : List Delimiter) :
    Takes sound missing text (before ++ outer) (after ++ outer) :=
  ⟨fun holds => (takes.kept holds).frame outer, fun fails => (takes.short fails).frame outer⟩

theorem Takes.feed (takes : Takes sound missing text before after) :
    Takes sound missing ('\n' :: text) before after :=
  ⟨fun holds => (takes.kept holds).feed, fun fails => (takes.short fails).feed⟩

theorem Takes.indent (takes : Takes sound missing text before after) (depth : Nat) :
    Takes sound missing (Text.indent depth text) before after :=
  ⟨fun holds => (takes.kept holds).indent depth, fun fails => (takes.short fails).indent depth⟩

/-- Where more is asked for, a text that is sound all the same misses nothing. -/
theorem Takes.imp {stronger : Prop} [Decidable sound] (takes : Takes sound missing text before after)
    (imp : stronger → sound) : Takes stronger (if sound then 0 else missing) text before after := by
  refine ⟨fun holds => takes.kept (imp holds), fun _ => ?_⟩
  split
  · rename_i holds
    exact (takes.kept holds).short
  · rename_i fails
    exact takes.short fails

end Takes

/-- A whole text that keeps its brackets has token trees. -/
theorem isSome_ofText?_of_kept {text : String} (kept : Kept text.toList [] [])
    (unmarked : text.toList.head? ≠ some TokenTree.byteOrderMark) :
    (TokenTree.ofText? text).isSome = true := by
  obtain ⟨tokens, read, matching⟩ := kept
  refine (isSome_ofText?_iff text).mpr ⟨tokens, ?_, matching⟩
  have found := Scan.tokens?_of_run read []
  rw [afterMark, if_neg unmarked]
  rwa [List.append_nil, tokens?_nil, Option.map_some, List.append_nil] at found

/-- One that misses brackets has none. -/
theorem ofText?_of_short {text : String} {missing : Nat} (short : Short missing text.toList [] [])
    (any : 0 < missing) (unmarked : text.toList.head? ≠ some TokenTree.byteOrderMark) :
    TokenTree.ofText? text = none := by
  rw [← Option.not_isSome_iff_eq_none, isSome_ofText?_iff, afterMark, if_neg unmarked]
  rintro ⟨tokens, found, matching⟩
  obtain ⟨_, others, read, rfl | ⟨rfl, counted⟩⟩ := short
  · rw [Scan.tokens?_of_stuck read] at found
    cases found
  · have same := Scan.tokens?_of_run read []
    rw [List.append_nil, tokens?_nil, found, Option.map_some, List.append_nil] at same
    obtain rfl := Option.some.inj same
    have balanced := length_of_matched matching
    omega

end SlotArray.Source
