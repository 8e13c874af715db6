import Mathlib.Data.List.DropRight
import Mathlib.Data.List.Nodup
import Mathlib.Data.List.ReduceOption
import SlotArray.Container.Cursor
import SlotArray.Proofs.Copies

/-! Walks over a container, asked for slots from both ends and copied on the way. What a walk answers
is told by the calls made on it: each end counts its own, and when there have been as many calls as
slots, all slots are used up. Nothing is asked of the container for that; one that has an element in
every slot is walked as the list of its elements is. -/
namespace SlotArray

/-- An end of a walk. -/
inductive Side where
  | front
  | back
deriving DecidableEq

variable {σ α : Type}

/-- Visits the next slot from one end. -/
def Cursor.visit (access : Access σ α) : Side → Cursor σ → Option α × Cursor σ
  | .front => next access
  | .back => nextBack access

/-! ## What calls come to -/

/-- The slot that a call from one end visits, out of `n` slots and behind earlier calls: the slots are
counted from that end, and none is left behind `n` calls. -/
def slotBehind? (n : Nat) (calls : List Side) : Side → Option Nat
  | .front => if calls.length < n then some (calls.count .front) else none
  | .back => if calls.length < n then some (n - 1 - calls.count .back) else none

/-- A walk that is nothing but the calls made on it. -/
def answerBehind (access : Access σ α) (array : σ) (side : Side) (calls : List Side) :
    Option α × List Side :=
  ((slotBehind? access.length calls side).bind (access.get array), calls ++ [side])

/-- The slots that calls visit, behind those that `earlier` ones did. -/
def visitedBehind (n : Nat) (earlier : List Side) : List Side → List Nat
  | [] => []
  | side :: rest => (slotBehind? n earlier side).toList ++ visitedBehind n (earlier ++ [side]) rest

/-- The slots that calls visit, in their order. -/
def visited (n : Nat) (calls : List Side) : List Nat := visitedBehind n [] calls

/-- Where a walk stands behind calls. Those behind the last slot do not move it. -/
def Cursor.behind (access : Access σ α) (array : σ) (calls : List Side) : Cursor σ :=
  let counted := calls.take access.length
  ⟨array, counted.count .front, access.length - counted.count .back⟩

/-- Every call is made from one of the ends. -/
theorem Side.count_add_count (calls : List Side) :
    calls.count .front + calls.count .back = calls.length := by
  induction calls with
  | nil => rfl
  | cons side rest ih => cases side <;> simp <;> omega

section Calls
variable (access : Access σ α) (array : σ) (calls : List Side)

/-- The ends never cross, and between them lie the slots that have not been asked for. -/
theorem Cursor.behind_bounds :
    (behind access array calls).front ≤ (behind access array calls).back ∧
      (behind access array calls).back ≤ access.length ∧
      (behind access array calls).remaining = access.length - calls.length := by
  have all := Side.count_add_count (calls.take access.length)
  rw [List.length_take] at all
  simp only [behind, remaining]
  omega

theorem Cursor.behind_nil : behind access array [] = start access array := by
  simp [behind, start]

/-- A call finds the slot that the calls before it lead to, and counts as one more. -/
theorem Cursor.visit_behind (side : Side) :
    visit access side (behind access array calls) =
      ((answerBehind access array side calls).1, behind access array (calls ++ [side])) := by
  have all := Side.count_add_count calls
  by_cases left : calls.length < access.length
  · have taken : calls.take access.length = calls := List.take_of_length_le (by omega)
    have takenToo : (calls ++ [side]).take access.length = calls ++ [side] := by
      apply List.take_of_length_le
      simp only [List.length_append, List.length_singleton]
      omega
    cases side with
    | front =>
      have apart : ¬ access.length - calls.count .back ≤ calls.count .front := by omega
      simp [visit, next, behind, answerBehind, slotBehind?, taken, takenToo, apart, left]
    | back =>
      have apart : ¬ access.length - calls.count .back ≤ calls.count .front := by omega
      have below : access.length - calls.count .back - 1 = access.length - 1 - calls.count .back := by
        omega
      have further : access.length - (calls.count .back + 1) =
          access.length - 1 - calls.count .back := by omega
      simp [visit, nextBack, behind, answerBehind, slotBehind?, taken, takenToo, apart, left, below, further]
  · have stays : behind access array (calls ++ [side]) = behind access array calls := by
      rw [behind, List.take_append_of_le_length (by omega), behind]
    have met : (behind access array calls).back ≤ (behind access array calls).front := by
      obtain ⟨_, _, none⟩ := behind_bounds access array calls
      simp only [remaining] at none
      omega
    rw [stays]
    cases side with
    | front => rw [visit, next, if_pos met, answerBehind, slotBehind?, if_neg left, Option.bind_none]
    | back => rw [visit, nextBack, if_pos met, answerBehind, slotBehind?, if_neg left, Option.bind_none]

/-- So does every call of a run, on whichever copy it is made. -/
theorem Cursor.run_visit (steps : List (CopyStep Side)) :
    Copies.run (visit access) [start access array] steps =
      ((Copies.run (answerBehind access array) [[]] steps).1,
        (Copies.run (answerBehind access array) [[]] steps).2.map (behind access array)) := by
  rw [← behind_nil]
  exact Copies.run_view (behind access array)
    (fun side calls => visit_behind access array calls side) [[]] steps

/-- Calls are taken down as they are made. -/
theorem answerBehind_after (uses : List Side) :
    Copies.after (answerBehind access array) calls uses = calls ++ uses := by
  induction uses generalizing calls with
  | nil => exact (List.append_nil calls).symm
  | cons side rest ih =>
    have first := ih (calls ++ [side])
    rw [List.append_assoc] at first
    exact first

end Calls

/-! ## No slot twice -/

theorem visitedBehind_append (n : Nat) (earlier calls : List Side) (side : Side) :
    visitedBehind n earlier (calls ++ [side]) =
      visitedBehind n earlier calls ++ (slotBehind? n (earlier ++ calls) side).toList := by
  induction calls generalizing earlier with
  | nil => simp [visitedBehind]
  | cons first rest ih =>
    rw [List.cons_append, visitedBehind, ih, visitedBehind]
    simp

theorem visited_append (n : Nat) (calls : List Side) (side : Side) :
    visited n (calls ++ [side]) = visited n calls ++ (slotBehind? n calls side).toList :=
  visitedBehind_append n [] calls side

/-- What has been visited is what lies in front of the walk and what lies behind it. -/
theorem visited_perm (n : Nat) (calls : List Side) :
    (visited n calls).Perm
      (List.range ((calls.take n).count .front) ++
        List.range' (n - (calls.take n).count .back) ((calls.take n).count .back)) := by
  induction calls using List.reverseRecOn with
  | nil => simp [visited, visitedBehind]
  | append_singleton calls side ih =>
    rw [visited_append]
    have all := Side.count_add_count calls
    by_cases left : calls.length < n
    · have taken : calls.take n = calls := List.take_of_length_le (by omega)
      have takenToo : (calls ++ [side]).take n = calls ++ [side] := by
        apply List.take_of_length_le
        simp only [List.length_append, List.length_singleton]
        omega
      rw [taken] at ih
      rw [takenToo]
      cases side with
      | front =>
        have none : [Side.front].count .back = 0 := rfl
        have one : [Side.front].count .front = 1 := rfl
        rw [slotBehind?, if_pos left, List.count_append, List.count_append, none, one,
          List.range_succ, Nat.add_zero]
        refine (ih.append_right _).trans ?_
        rw [List.append_assoc, List.append_assoc]
        exact List.perm_append_comm.append_left _
      | back =>
        have none : [Side.back].count .front = 0 := rfl
        have one : [Side.back].count .back = 1 := rfl
        have first : n - (calls.count .back + 1) = n - 1 - calls.count .back := by omega
        have second : n - calls.count .back = n - 1 - calls.count .back + 1 := by omega
        rw [slotBehind?, if_pos left, List.count_append, List.count_append, none, one, Nat.add_zero,
          first, List.range'_succ, ← second]
        exact (List.perm_append_comm.trans (ih.cons _)).trans List.perm_middle.symm
    · have taken : (calls ++ [side]).take n = calls.take n :=
        List.take_append_of_le_length (by omega)
      have nothing : slotBehind? n calls side = none := by
        cases side <;> exact if_neg left
      rw [nothing, taken]
      simpa using ih

theorem nodup_visited (n : Nat) (calls : List Side) : (visited n calls).Nodup := by
  have all := Side.count_add_count (calls.take n)
  rw [List.length_take] at all
  rw [(visited_perm n calls).nodup_iff, List.nodup_append]
  refine ⟨List.nodup_range, List.nodup_range', ?_⟩
  intro slot low other high same
  rw [List.mem_range] at low
  rw [List.mem_range'_1] at high
  omega

/-! ## Collecting -/

/-- Collecting from the front stops at the first slot that answers nothing. -/
theorem Cursor.collect_next (access : Access σ α) (array : σ) (count front : Nat) :
    collect (next access) count ⟨array, front, front + count⟩ =
      (((List.range' front count).map (access.get array)).takeWhile Option.isSome).reduceOption := by
  induction count generalizing front with
  | zero => rfl
  | succ count ih =>
    have apart : ¬ front + (count + 1) ≤ front := by omega
    have shifted : front + (count + 1) = front + 1 + count := by omega
    rw [collect, next, if_neg apart, List.range'_succ, List.map_cons]
    cases found : access.get array front with
    | none => rfl
    | some value =>
      rw [List.takeWhile_cons_of_pos rfl, List.reduceOption_cons_of_some, ← ih (front + 1), shifted]

/-- The elements of a container, up to the first slot that answers nothing. -/
theorem Access.toList_eq (access : Access σ α) (array : σ) :
    access.toList array =
      (((List.range access.length).map (access.get array)).takeWhile Option.isSome).reduceOption := by
  have collected := Cursor.collect_next access array access.length 0
  rw [Nat.zero_add, ← List.range_eq_range'] at collected
  exact collected

/-- A slot that answers nothing ends the list, but not a walk. -/
example :
    let access : Access Unit Nat :=
      ⟨3, fun _ i => if i = 1 then none else some i, fun _ _ => none, fun _ => []⟩
    access.toList () = [0] ∧
      (Copies.run (Cursor.visit access) [Cursor.start access ()]
        [.use 0 .front, .use 0 .front, .use 0 .front, .use 0 .front]).1 =
        [some (some 0), some none, some (some 2), some none] := by
  decide

/-! ## Elements in all slots -/

/-- Some elements are skipped at one end, and the next one is taken. -/
structure Move where
  side : Side
  skipped : Nat

/-- Makes a move on a walk. -/
def Cursor.take (access : Access σ α) (move : Move) (cursor : Cursor σ) : Option α × Cursor σ :=
  skip (visit access move.side) move.skipped cursor

/-- Makes a move on a list. -/
def takeOff (move : Move) (elements : List α) : Option α × List α :=
  match move.side with
  | .front => (elements[move.skipped]?, elements.drop (move.skipped + 1))
  | .back => (elements.reverse[move.skipped]?, elements.rdrop (move.skipped + 1))

/-- A walk that has the elements of a list in front of it. -/
structure Shows (access : Access σ α) (cursor : Cursor σ) (elements : List α) : Prop where
  ends : cursor.front + elements.length = cursor.back
  slots : ∀ i, (inside : i < elements.length) →
    access.get cursor.array (cursor.front + i) = some elements[i]

namespace Shows
variable {access : Access σ α} {cursor : Cursor σ} {elements : List α}

theorem remaining_eq (shows : Shows access cursor elements) :
    cursor.remaining = elements.length := by
  have ends := shows.ends
  simp only [Cursor.remaining]
  omega

/-- With nothing in front of it, a walk stays where it is. -/
theorem visit_nil (shows : Shows access cursor []) (side : Side) :
    cursor.visit access side = (none, cursor) := by
  have met : cursor.back ≤ cursor.front := Nat.le_of_eq shows.ends.symm
  cases side <;> simp [Cursor.visit, Cursor.next, Cursor.nextBack, met]

theorem next_cons {first : α} (shows : Shows access cursor (first :: elements)) :
    ∃ later, cursor.next access = (some first, later) ∧ Shows access later elements := by
  have ends := shows.ends
  simp only [List.length_cons] at ends
  have apart : ¬ cursor.back ≤ cursor.front := by omega
  have found := shows.slots 0 (by simp)
  refine ⟨{ cursor with front := cursor.front + 1 }, ?_, ?_, ?_⟩
  · simpa [Cursor.next, apart] using found
  · simp only
    omega
  · intro i inside
    have behind := shows.slots (i + 1) (by simpa using inside)
    simpa [Nat.add_assoc, Nat.add_comm 1 i] using behind

theorem nextBack_concat {last : α} (shows : Shows access cursor (elements ++ [last])) :
    ∃ later, cursor.nextBack access = (some last, later) ∧ Shows access later elements := by
  have ends := shows.ends
  simp only [List.length_append, List.length_singleton] at ends
  have apart : ¬ cursor.back ≤ cursor.front := by omega
  have place : cursor.back - 1 = cursor.front + elements.length := by omega
  have found := shows.slots elements.length (by simp)
  refine ⟨{ cursor with back := cursor.back - 1 }, ?_, ?_, ?_⟩
  · simpa [Cursor.nextBack, apart, place] using found
  · exact place.symm
  · intro i inside
    have before := shows.slots i (by simp only [List.length_append]; omega)
    rwa [List.getElem_append_left inside] at before

/-- A move takes off the walk what it takes off the list. -/
theorem take (shows : Shows access cursor elements) (move : Move) :
    (cursor.take access move).1 = (takeOff move elements).1 ∧
      Shows access (cursor.take access move).2 (takeOff move elements).2 := by
  obtain ⟨side, skipped⟩ := move
  induction skipped generalizing cursor elements with
  | zero =>
    cases side with
    | front =>
      cases elements with
      | nil => simpa [Cursor.take, Cursor.skip, shows.visit_nil, takeOff] using shows
      | cons first rest =>
        obtain ⟨later, stepped, further⟩ := shows.next_cons
        simpa [Cursor.take, Cursor.skip, Cursor.visit, stepped, takeOff] using further
    | back =>
      rcases List.eq_nil_or_concat elements with rfl | ⟨rest, last, rfl⟩
      · simpa [Cursor.take, Cursor.skip, shows.visit_nil, takeOff] using shows
      · rw [List.concat_eq_append] at shows ⊢
        obtain ⟨later, stepped, further⟩ := shows.nextBack_concat
        simpa [Cursor.take, Cursor.skip, Cursor.visit, stepped, takeOff] using further
  | succ skipped ih =>
    cases side with
    | front =>
      cases elements with
      | nil => simpa [Cursor.take, Cursor.skip, shows.visit_nil, takeOff] using shows
      | cons first rest =>
        obtain ⟨later, stepped, further⟩ := shows.next_cons
        have onward := ih further
        simpa [Cursor.take, Cursor.skip, Cursor.visit, stepped, takeOff] using onward
    | back =>
      rcases List.eq_nil_or_concat elements with rfl | ⟨rest, last, rfl⟩
      · simpa [Cursor.take, Cursor.skip, shows.visit_nil, takeOff] using shows
      · rw [List.concat_eq_append] at shows ⊢
        obtain ⟨later, stepped, further⟩ := shows.nextBack_concat
        have onward := ih further
        simpa [Cursor.take, Cursor.skip, Cursor.visit, stepped, takeOff, List.rdrop_concat_succ]
          using onward

theorem toList_eq (shows : Shows access cursor elements) : cursor.toList access = elements := by
  rw [Cursor.toList, shows.remaining_eq]
  induction elements generalizing cursor with
  | nil => rfl
  | cons first rest ih =>
    obtain ⟨later, stepped, further⟩ := shows.next_cons
    rw [List.length_cons, Cursor.collect, stepped]
    exact congrArg (first :: ·) (ih further)

theorem toListBack_eq (shows : Shows access cursor elements) :
    cursor.toListBack access = elements.reverse := by
  rw [Cursor.toListBack, shows.remaining_eq]
  induction elements using List.reverseRecOn generalizing cursor with
  | nil => rfl
  | append_singleton rest last ih =>
    obtain ⟨later, stepped, further⟩ := shows.nextBack_concat
    rw [List.length_append, List.length_singleton, Cursor.collect, stepped, List.reverse_concat]
    exact congrArg (last :: ·) (ih further)

/-- A walk over slots that have the elements of a list has them all in front of it. -/
theorem of_getElem? {array : σ} (length : access.length = elements.length)
    (slots : ∀ i, access.get array i = elements[i]?) :
    Shows access (Cursor.start access array) elements := by
  refine ⟨by rw [Cursor.start, Nat.zero_add, length], fun i inside => ?_⟩
  rw [← List.getElem?_eq_getElem inside, ← slots i, Cursor.start, Nat.zero_add]

/-- So has a walk over slots that all have elements. -/
theorem start {array : σ} (full : ∀ i, (access.get array i).isSome ↔ i < access.length) :
    Shows access (Cursor.start access array)
      ((List.range access.length).filterMap (access.get array)) := by
  have all : ∀ n ≤ access.length,
      ((List.range n).filterMap (access.get array)).length = n ∧
        ∀ i < n, ((List.range n).filterMap (access.get array))[i]? = access.get array i := by
    intro n bound
    induction n with
    | zero => simp
    | succ n ih =>
      obtain ⟨length, slots⟩ := ih (by omega)
      obtain ⟨value, last⟩ := Option.isSome_iff_exists.mp ((full n).mpr (by omega))
      rw [List.range_succ, List.filterMap_append]
      refine ⟨by simp [length, last], fun i inside => ?_⟩
      by_cases same : i = n
      · simp [same, length, last]
      · rw [List.getElem?_append_left (by omega), slots i (by omega)]
  obtain ⟨length, slots⟩ := all access.length (Nat.le_refl _)
  refine of_getElem? length.symm fun i => ?_
  by_cases inside : i < access.length
  · exact (slots i inside).symm
  · have nothing : access.get array i = none := by simpa [inside] using full i
    rw [nothing, List.getElem?_eq_none (by omega)]

end Shows

/-- A walk answers what the calls made on it so far lead to, whatever is done with its copies: each
end counts its own calls, no slot comes twice, and behind as many calls as there are slots nothing is
answered any more. Its ends never cross. The elements of a container are those in front of the first
slot that answers nothing, and where every slot has one, walks go as lists do. -/
theorem walks_follow_calls (access : Access σ α) (array : σ) :
    let walk := Copies.run (Cursor.visit access) [Cursor.start access array]
    let calls := Copies.run (answerBehind access array) [[]]
    (∀ steps, walk steps = ((calls steps).1, (calls steps).2.map (Cursor.behind access array))) ∧
    (∀ earlier later which, which < (walk earlier).2.length →
      (walk (earlier ++ later)).2[which]? = (calls earlier).2[which]?.map fun made =>
        Cursor.behind access array (made ++ Copies.usesOf which later)) ∧
    (∀ made : List Side,
      let cursor := Cursor.behind access array made
      cursor.front ≤ cursor.back ∧ cursor.back ≤ access.length ∧
        cursor.bounds = (access.length - made.length, some (access.length - made.length)) ∧
        (visited access.length made).Nodup) ∧
    access.toList array =
      (((List.range access.length).map (access.get array)).takeWhile Option.isSome).reduceOption ∧
    ((∀ i, (access.get array i).isSome ↔ i < access.length) →
      ∀ steps,
        let cursors := Copies.run (Cursor.take access) [Cursor.start access array] steps
        let lists :=
          Copies.run takeOff [(List.range access.length).filterMap (access.get array)] steps
        cursors.1 = lists.1 ∧ cursors.2.map Cursor.remaining = lists.2.map List.length ∧
          cursors.2.map (Cursor.toList access) = lists.2 ∧
          cursors.2.map (Cursor.toListBack access) = lists.2.map List.reverse) := by
  intro walk calls
  refine ⟨Cursor.run_visit access array, ?_, ?_, access.toList_eq array, ?_⟩
  · intro earlier later which there
    have seen : (walk earlier).2 = (calls earlier).2.map (Cursor.behind access array) :=
      congrArg Prod.snd (Cursor.run_visit access array earlier)
    have inside : which < (calls earlier).2.length := by
      rw [← List.length_map (Cursor.behind access array), ← seen]
      exact there
    have both : walk (earlier ++ later) = _ := Cursor.run_visit access array (earlier ++ later)
    rw [both, Copies.run_append, List.getElem?_map, Copies.getElem?_run _ inside, Option.map_map]
    simp [Function.comp_def, answerBehind_after, calls]
  · intro made cursor
    obtain ⟨ordered, within, left⟩ := Cursor.behind_bounds access array made
    exact ⟨ordered, within, by rw [Cursor.bounds, left], nodup_visited access.length made⟩
  · intro full steps cursors lists
    obtain ⟨answers, last⟩ := Copies.run_related (R := Shows access)
      (fun move _ _ shows => shows.take move) steps (.cons (Shows.start full) .nil)
    refine ⟨answers, ?_, ?_, ?_⟩
    · exact Copies.map_eq_of_forall₂ last fun _ _ shows => shows.remaining_eq
    · rw [Copies.map_eq_of_forall₂ last fun _ _ shows => shows.toList_eq, List.map_id']
    · exact Copies.map_eq_of_forall₂ last fun _ _ shows => shows.toListBack_eq

/-- Of three elements the second is taken from the front, and then a copy of the walk and the walk
itself each take the last; after that there is nothing left of either. -/
theorem walks_follow_calls_three :
    let access := Container.access (α := Nat) (n := 3)
    let array : Container Nat 3 := ⟨#v[5, 6, 7]⟩
    let moves : List (CopyStep Move) :=
      [.use 0 ⟨.front, 1⟩, .copy 0, .use 1 ⟨.back, 0⟩, .use 0 ⟨.back, 0⟩, .use 0 ⟨.front, 0⟩]
    let walks := Copies.run (Cursor.take access) [Cursor.start access array] moves
    (∀ i, (access.get array i).isSome ↔ i < access.length) ∧
      walks.1 = [some (some 6), none, some (some 7), some (some 7), some none] ∧
      walks.2.map Cursor.remaining = [0, 0] := by
  intro access array moves walks
  have full (i : Nat) : (access.get array i).isSome ↔ i < access.length := by
    simp [access, Container.access, Container.get]
  obtain ⟨answers, left, -⟩ := (walks_follow_calls access array).2.2.2.2 full moves
  refine ⟨full, answers.trans ?_, left.trans ?_⟩
  · rfl
  · rfl

end SlotArray
