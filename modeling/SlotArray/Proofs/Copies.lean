import Mathlib.Data.List.Forall2

/-! Values that are used and copied. A use answers something and changes the copy it is made of, and
no other. Two kinds of values that answer every single use alike therefore answer alike through every
run, whatever is copied in between. -/
namespace SlotArray

/-- What is done with a row of copies: one is used, or one is copied and the copy put at the end. -/
inductive CopyStep (ω : Type) where
  | use (which : Nat) (how : ω)
  | copy (which : Nat)

namespace Copies
variable {ω β τ σ : Type}

/-- One step. There is no answer where there is no such copy, or where it is only copied. -/
def step (use : ω → τ → β × τ) (copies : List τ) : CopyStep ω → Option β × List τ
  | .use which how =>
    match copies[which]? with
    | some value => (some (use how value).1, copies.set which (use how value).2)
    | none => (none, copies)
  | .copy which => (none, copies ++ copies[which]?.toList)

/-- Steps one after another, with their answers in order. -/
def run (use : ω → τ → β × τ) (copies : List τ) : List (CopyStep ω) → List (Option β) × List τ
  | [] => ([], copies)
  | first :: rest =>
    let (answer, copies) := step use copies first
    let (answers, copies) := run use copies rest
    (answer :: answers, copies)

/-- The uses that are made of one copy. -/
def usesOf (which : Nat) (steps : List (CopyStep ω)) : List ω :=
  steps.filterMap fun
    | .use other how => if other = which then some how else none
    | .copy _ => none

theorem run_cons (use : ω → τ → β × τ) (copies : List τ) (first : CopyStep ω)
    (rest : List (CopyStep ω)) :
    run use copies (first :: rest) =
      ((step use copies first).1 :: (run use (step use copies first).2 rest).1,
        (run use (step use copies first).2 rest).2) := rfl

theorem run_append (use : ω → τ → β × τ) (copies : List τ) (earlier later : List (CopyStep ω)) :
    run use copies (earlier ++ later) =
      ((run use copies earlier).1 ++ (run use (run use copies earlier).2 later).1,
        (run use (run use copies earlier).2 later).2) := by
  induction earlier generalizing copies with
  | nil => rfl
  | cons first rest ih => rw [List.cons_append, run_cons, run_cons, ih, List.cons_append]

/-! ## Two kinds of values -/

section Related
variable {use : ω → τ → β × τ} {useOther : ω → σ → β × σ} {R : τ → σ → Prop}
  {copies : List τ} {others : List σ}

theorem forall₂_set (related : List.Forall₂ R copies others) (which : Nat) {value : τ} {other : σ}
    (same : R value other) : List.Forall₂ R (copies.set which value) (others.set which other) := by
  induction related generalizing which with
  | nil => exact .nil
  | cons first rest ih =>
    cases which with
    | zero => exact .cons same rest
    | succ which => exact .cons first (ih which)

/-- Related rows have related copies in the same places. -/
theorem forall₂_getElem? (related : List.Forall₂ R copies others) (which : Nat) :
    (copies[which]? = none ∧ others[which]? = none) ∨
      ∃ value other, copies[which]? = some value ∧ others[which]? = some other ∧ R value other := by
  induction related generalizing which with
  | nil => simp
  | @cons value other _ _ first rest ih =>
    cases which with
    | zero => exact .inr ⟨value, other, rfl, rfl, first⟩
    | succ which => simpa using ih which

/-- Where related copies are seen alike, so are their rows. -/
theorem map_eq_of_forall₂ {γ : Type} {see : τ → γ} {seeOther : σ → γ}
    (related : List.Forall₂ R copies others)
    (alike : ∀ value other, R value other → see value = seeOther other) :
    copies.map see = others.map seeOther := by
  rw [← List.forall₂_eq_eq_eq, List.forall₂_map_left_iff, List.forall₂_map_right_iff]
  exact related.imp alike

variable (uses : ∀ how value other, R value other →
  (use how value).1 = (useOther how other).1 ∧ R (use how value).2 (useOther how other).2)
include uses

theorem step_related (related : List.Forall₂ R copies others) (next : CopyStep ω) :
    (step use copies next).1 = (step useOther others next).1 ∧
      List.Forall₂ R (step use copies next).2 (step useOther others next).2 := by
  cases next with
  | use which how =>
    obtain ⟨missing, missingToo⟩ | ⟨value, other, found, foundToo, same⟩ :=
      forall₂_getElem? related which
    · simp [step, missing, missingToo, related]
    · obtain ⟨answer, after⟩ := uses how value other same
      simpa [step, found, foundToo, answer] using forall₂_set related which after
  | copy which =>
    refine ⟨rfl, List.rel_append related ?_⟩
    obtain ⟨missing, missingToo⟩ | ⟨value, other, found, foundToo, same⟩ :=
      forall₂_getElem? related which
    · rw [missing, missingToo]
      exact .nil
    · rw [found, foundToo]
      exact .cons same .nil

/-- Values that answer every use alike answer every run alike. -/
theorem run_related (steps : List (CopyStep ω)) (related : List.Forall₂ R copies others) :
    (run use copies steps).1 = (run useOther others steps).1 ∧
      List.Forall₂ R (run use copies steps).2 (run useOther others steps).2 := by
  induction steps generalizing copies others with
  | nil => exact ⟨rfl, related⟩
  | cons first rest ih =>
    obtain ⟨answer, after⟩ := step_related uses related first
    obtain ⟨answers, last⟩ := ih after
    rw [run_cons, run_cons, answer, answers]
    exact ⟨rfl, last⟩

end Related

/-- Values that are seen through others answer as these do, and stay what they are seen as. -/
theorem run_view {use : ω → τ → β × τ} {useOther : ω → σ → β × σ} (view : σ → τ)
    (uses : ∀ how other, use how (view other) =
      ((useOther how other).1, view (useOther how other).2))
    (others : List σ) (steps : List (CopyStep ω)) :
    run use (others.map view) steps =
      ((run useOther others steps).1, (run useOther others steps).2.map view) := by
  have together : List.Forall₂ (fun value other => value = view other) (others.map view) others := by
    simp [List.forall₂_map_left_iff, List.forall₂_same]
  have alike (how : ω) (value : τ) (other : σ) (same : value = view other) :
      (use how value).1 = (useOther how other).1 ∧
        (use how value).2 = view (useOther how other).2 := by
    rw [same, uses]
    exact ⟨rfl, rfl⟩
  obtain ⟨answers, last⟩ := run_related alike steps together
  refine Prod.ext answers ?_
  rw [← List.forall₂_eq_eq_eq, List.forall₂_map_right_iff]
  exact last

/-! ## One copy among others -/

section Single
variable (use : ω → τ → β × τ) {copies : List τ} {which : Nat}

/-- A value after some uses. -/
def after (value : τ) (uses : List ω) : τ :=
  uses.foldl (fun value how => (use how value).2) value

theorem usesOf_cons (which : Nat) (first : CopyStep ω) (rest : List (CopyStep ω)) :
    usesOf which (first :: rest) = usesOf which [first] ++ usesOf which rest := by
  rw [usesOf, usesOf, usesOf, ← List.filterMap_append, List.singleton_append]

theorem length_le_step (next : CopyStep ω) : copies.length ≤ (step use copies next).2.length := by
  cases next with
  | use other how =>
    cases found : copies[other]? <;> simp [step, found]
  | copy other => simp [step]

/-- A step takes a copy that is there where its own use takes it, if it makes any. -/
theorem getElem?_step (there : which < copies.length) (next : CopyStep ω) :
    (step use copies next).2[which]? = copies[which]?.map (after use · (usesOf which [next])) := by
  have kept : copies[which]?.map (after use · []) = copies[which]? := Option.map_id'
  cases next with
  | use other how =>
    by_cases same : other = which
    · subst same
      simp [step, usesOf, after, there]
    · have none : usesOf which [.use other how] = [] := by simp [usesOf, same]
      rw [none, kept]
      cases found : copies[other]? with
      | none => simp [step, found]
      | some value =>
        simp only [step, found]
        exact List.getElem?_set_ne same
  | copy other =>
    rw [show usesOf which [.copy other] = ([] : List ω) from rfl, kept]
    exact List.getElem?_append_left there

/-- A copy that is there ends where the uses made of it take it; what is done with the others, its
own copies among them, does not count. -/
theorem getElem?_run (there : which < copies.length) (steps : List (CopyStep ω)) :
    (run use copies steps).2[which]? = copies[which]?.map (after use · (usesOf which steps)) := by
  induction steps generalizing copies with
  | nil => exact Option.map_id'.symm
  | cons first rest ih =>
    have still : which < (step use copies first).2.length :=
      Nat.lt_of_lt_of_le there (length_le_step use first)
    have split (value : τ) : after use value (usesOf which (first :: rest)) =
        after use (after use value (usesOf which [first])) (usesOf which rest) := by
      rw [usesOf_cons, after, List.foldl_append]
      rfl
    rw [run_cons, ih still, getElem?_step use there, Option.map_map]
    simp [split, Function.comp_def]

end Single
end Copies
end SlotArray
