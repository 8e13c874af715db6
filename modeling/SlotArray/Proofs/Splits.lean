import SlotArray.Text.Split

/-! Where the cuts of a text fall. Text put behind text is cut where the two are, unless the cut would
have to be made across the place where they meet: there the last piece of the one and the first of the
other become a piece. -/
namespace SlotArray.Text

variable {isSeparator : Char → Bool} {piece : List Char}

/-- Text without separators is one piece. -/
theorem splitWhere_of_clean (clean : ∀ c ∈ piece, isSeparator c = false) :
    splitWhere isSeparator piece = [piece] := by
  induction piece with
  | nil => rfl
  | cons c piece ih =>
    have first := clean c List.mem_cons_self
    have later := ih fun d mem => clean d (List.mem_cons_of_mem c mem)
    simp [splitWhere, first, later, consPiece]

/-- It is the first piece of a text in which a separator follows it. -/
theorem splitWhere_append (clean : ∀ c ∈ piece, isSeparator c = false) {separator : Char}
    (separates : isSeparator separator = true) (rest : List Char) :
    splitWhere isSeparator (piece ++ separator :: rest) = piece :: splitWhere isSeparator rest := by
  induction piece with
  | nil => simp [splitWhere, separates]
  | cons c piece ih =>
    have first := clean c List.mem_cons_self
    have later := ih fun d mem => clean d (List.mem_cons_of_mem c mem)
    simp [splitWhere, first, later, consPiece]

/-- A list with commas and blanks between its items is cut in front of each blank. -/
theorem splitWhere_intercalate {first : String} {rest : List String}
    (clean : ∀ item ∈ first :: rest, ',' ∉ item.toList) :
    splitWhere (· == ',') (", ".intercalate (first :: rest)).toList =
      first.toList :: rest.map fun item => ' ' :: item.toList := by
  have plain {item : String} (lacks : ',' ∉ item.toList) : ∀ c ∈ item.toList, (c == ',') = false :=
    fun c mem => beq_eq_false_iff_ne.mpr fun comma => lacks (comma ▸ mem)
  induction rest generalizing first with
  | nil =>
    rw [String.intercalate_singleton, splitWhere_of_clean (plain (clean first List.mem_cons_self)), List.map_nil]
  | cons second rest ih =>
    have separator : ", ".toList = [',', ' '] := by decide
    have later := ih fun item mem => clean item (List.mem_cons_of_mem first mem)
    rw [String.intercalate_cons_cons, String.toList_append, String.toList_append, separator,
      List.append_assoc, List.cons_append,
      splitWhere_append (plain (clean first List.mem_cons_self)) rfl]
    generalize (", ".intercalate (second :: rest)).toList = text at later
    simp [splitWhere, later, consPiece]

/-! ## Double colons -/

theorem splitColons_ne_nil (text : List Char) : splitColons text ≠ [] := by
  fun_cases splitColons text with
  | case1 => exact List.cons_ne_nil _ _
  | case2 => exact List.cons_ne_nil _ _
  | case3 c rest =>
    cases splitColons rest with
    | nil => exact List.cons_ne_nil _ _
    | cons => exact List.cons_ne_nil _ _

/-- A character that begins no double colon stays in the piece behind it. -/
theorem splitColons_cons {c : Char} {rest : List Char} (single : c = ':' → rest.head? ≠ some ':') :
    splitColons (c :: rest) = consPiece c (splitColons rest) := by
  rw [splitColons]
  rintro others rfl rfl
  exact single rfl rfl

theorem splitColons_of_clean (clean : ':' ∉ piece) : splitColons piece = [piece] := by
  induction piece with
  | nil => rfl
  | cons c piece ih =>
    have other : c ≠ ':' := fun same => clean (same ▸ List.mem_cons_self)
    rw [splitColons_cons fun same => absurd same other,
      ih fun mem => clean (List.mem_cons_of_mem c mem), consPiece]

theorem splitColons_append_colons (clean : ':' ∉ piece) (rest : List Char) :
    splitColons (piece ++ ':' :: ':' :: rest) = piece :: splitColons rest := by
  induction piece with
  | nil => rfl
  | cons c piece ih =>
    have other : c ≠ ':' := fun same => clean (same ▸ List.mem_cons_self)
    rw [List.cons_append, splitColons_cons fun same => absurd same other,
      ih fun mem => clean (List.mem_cons_of_mem c mem), consPiece]

/-! ## Text behind text -/

/-- The pieces of two texts and of the one behind the other: where the texts meet two pieces are one. -/
def Meet (left right whole : List (List Char)) : Prop :=
  ∃ front last first rest, left = front ++ [last] ∧ right = first :: rest ∧
    whole = front ++ (last ++ first) :: rest

variable {left right whole : List (List Char)}

theorem Meet.empty (proper : right ≠ []) : Meet [[]] right right := by
  obtain ⟨first, rest, rfl⟩ := List.exists_cons_of_ne_nil proper
  exact ⟨[], [], first, rest, rfl, rfl, rfl⟩

theorem Meet.cons (piece : List Char) (meets : Meet left right whole) :
    Meet (piece :: left) right (piece :: whole) := by
  obtain ⟨front, last, first, rest, rfl, rfl, rfl⟩ := meets
  exact ⟨piece :: front, last, first, rest, rfl, rfl, rfl⟩

theorem Meet.consPiece (c : Char) (meets : Meet left right whole) :
    Meet (consPiece c left) right (consPiece c whole) := by
  obtain ⟨front, last, first, rest, rfl, rfl, rfl⟩ := meets
  cases front with
  | nil => exact ⟨[], c :: last, first, rest, rfl, rfl, rfl⟩
  | cons piece front => exact ⟨(c :: piece) :: front, last, first, rest, rfl, rfl, rfl⟩

/-- Pieces can be cut once more. -/
theorem Meet.flatMap {cut : List Char → List (List Char)}
    (cuts : ∀ left right, Meet (cut left) (cut right) (cut (left ++ right)))
    (meets : Meet left right whole) : Meet (left.flatMap cut) (right.flatMap cut) (whole.flatMap cut) := by
  obtain ⟨front, last, first, rest, rfl, rfl, rfl⟩ := meets
  obtain ⟨inFront, inLast, inFirst, inRest, cutLast, cutFirst, cutBoth⟩ := cuts last first
  refine ⟨front.flatMap cut ++ inFront, inLast, inFirst, inRest ++ rest.flatMap cut, ?_, ?_, ?_⟩
  · simp [cutLast]
  · simp [cutFirst]
  · simp [cutBoth]

theorem splitWhere_meet (isSeparator : Char → Bool) (left right : List Char) :
    Meet (splitWhere isSeparator left) (splitWhere isSeparator right)
      (splitWhere isSeparator (left ++ right)) := by
  induction left with
  | nil => exact .empty (splitWhere_ne_nil isSeparator right)
  | cons c left ih =>
    rw [List.cons_append, splitWhere, splitWhere]
    by_cases separates : isSeparator c = true
    · rw [if_pos separates, if_pos separates]
      exact ih.cons []
    · rw [if_neg separates, if_neg separates]
      exact ih.consPiece c

/-- No double colon is cut across the place where two texts meet, unless each gives one colon to it. -/
theorem splitColons_meet {left right : List Char}
    (apart : left.getLast? ≠ some ':' ∨ right.head? ≠ some ':') :
    Meet (splitColons left) (splitColons right) (splitColons (left ++ right)) := by
  fun_induction splitColons left with
  | case1 => exact .empty (splitColons_ne_nil right)
  | case2 rest ih =>
    refine (ih (apart.imp_left ?_)).cons []
    intro notLast last
    exact notLast (by simp [List.getLast?_cons, last])
  | case3 c rest notColons ih =>
    have single : c = ':' → (rest ++ right).head? ≠ some ':' := by
      rintro rfl head
      cases rest with
      | nil => exact apart.elim (fun notLast => notLast rfl) fun notHead => notHead head
      | cons d rest => exact notColons rest rfl (by rw [Option.some.inj head])
    rw [List.cons_append, splitColons_cons single]
    refine (ih (apart.imp_left ?_)).consPiece c
    intro notLast last
    exact notLast (by simp [List.getLast?_cons, last])

end SlotArray.Text
