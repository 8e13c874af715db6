import SlotArray.Proofs.Layout

/-! The order in which a document writes definitions. Modules ascend and each keeps the order its
definitions came in, which leaves one order for all of them: the one they came in, sorted by their
modules and otherwise left alone. -/
namespace SlotArray
open Document (written writtenIn)

section Sorting
variable {α : Type} (key : α → List String)

/-- One may stand before the other. -/
def inOrder (first second : α) : Bool := decide (¬ key second < key first)

theorem inOrder_iff (first second : α) : inOrder key first second = true ↔ ¬ key second < key first :=
  decide_eq_true_iff

private theorem inOrder_trans (a b c : α) (ab : inOrder key a b = true) (bc : inOrder key b c = true) :
    inOrder key a c = true := by
  rw [inOrder_iff] at ab bc ⊢
  exact List.le_trans ab bc

private theorem inOrder_total (a b : α) : (inOrder key a b || inOrder key b a) = true := by
  rw [Bool.or_eq_true, inOrder_iff, inOrder_iff]
  by_cases below : key b < key a
  · exact .inr (List.lt_asymm below)
  · exact .inl below

private theorem eq_of_inOrder {first second : List String} (notAfter : ¬ second < first)
    (notBefore : ¬ first < second) : first = second :=
  List.le_antisymm notAfter notBefore

private theorem mem_of_filter_key {elements others : List α}
    (same : ∀ path, elements.filter (key · = path) = others.filter (key · = path)) {element : α}
    (mem : element ∈ elements) : element ∈ others := by
  have found : element ∈ others.filter (key · = key element) := by
    rw [← same]
    exact List.mem_filter.mpr ⟨mem, decide_eq_true rfl⟩
  exact List.mem_of_mem_filter found

private theorem not_lt_head {first element : α} {rest : List α}
    (sorted : (first :: rest).Pairwise fun a b => ¬ key b < key a) (mem : element ∈ first :: rest) :
    ¬ key element < key first := by
  rcases List.mem_cons.mp mem with rfl | mem
  · exact List.lt_irrefl _
  · exact (List.pairwise_cons.mp sorted).1 element mem

/-- Lists in order that agree on the elements of every key are the same list. -/
theorem eq_of_filter_key {elements others : List α}
    (sorted : elements.Pairwise fun a b => ¬ key b < key a)
    (sortedOthers : others.Pairwise fun a b => ¬ key b < key a)
    (same : ∀ path, elements.filter (key · = path) = others.filter (key · = path)) :
    elements = others := by
  induction elements generalizing others with
  | nil =>
    refine (List.eq_nil_iff_forall_not_mem.mpr fun other mem => ?_).symm
    exact absurd (mem_of_filter_key key (fun path => (same path).symm) mem) List.not_mem_nil
  | cons first rest ih =>
    have found : first ∈ others := mem_of_filter_key key same List.mem_cons_self
    cases others with
    | nil => exact absurd found List.not_mem_nil
    | cons other more =>
      have foundOther : other ∈ first :: rest :=
        mem_of_filter_key key (fun path => (same path).symm) List.mem_cons_self
      -- Each first element is in the other list too, so neither key comes before the other.
      have keys : key first = key other :=
        eq_of_inOrder (not_lt_head key sorted foundOther) (not_lt_head key sortedOthers found)
      have heads := same (key first)
      simp only [List.filter_cons, keys, decide_true, ↓reduceIte] at heads
      obtain ⟨rfl, _⟩ := List.cons_eq_cons.mp heads
      refine congrArg (first :: ·) (ih sorted.of_cons sortedOthers.of_cons fun path => ?_)
      have tails := same path
      by_cases here : key first = path
      · simp only [List.filter_cons, here, decide_true, ↓reduceIte] at tails
        exact (List.cons_eq_cons.mp tails).2
      · simp only [List.filter_cons, here, decide_false, Bool.false_eq_true, ↓reduceIte] at tails
        exact tails

theorem pairwise_mergeSort_inOrder (elements : List α) :
    (elements.mergeSort (inOrder key)).Pairwise fun a b => ¬ key b < key a :=
  (List.pairwise_mergeSort (inOrder_trans key) (inOrder_total key) elements).imp
    fun related => (inOrder_iff key _ _).mp related

/-- Sorting leaves the elements of one key in the order they had. -/
theorem filter_mergeSort_inOrder (elements : List α) (path : List String) :
    (elements.mergeSort (inOrder key)).filter (key · = path) = elements.filter (key · = path) := by
  have related : (elements.filter (key · = path)).Pairwise fun a b => inOrder key a b = true := by
    refine List.pairwise_of_forall_mem_list fun a inA b inB => ?_
    have keyA : key a = path := of_decide_eq_true (List.mem_filter.mp inA).2
    have keyB : key b = path := of_decide_eq_true (List.mem_filter.mp inB).2
    rw [inOrder_iff, keyA, keyB]
    exact List.lt_irrefl path
  have kept := List.sublist_mergeSort (inOrder_trans key) (inOrder_total key) related
    List.filter_sublist
  have within := kept.filter (key · = path)
  rw [List.filter_filter] at within
  simp only [Bool.and_self] at within
  have count := ((List.mergeSort_perm elements (inOrder key)).filter (key · = path)).length_eq
  exact (within.eq_of_length count.symm).symm

end Sorting

namespace ModuleTree

private theorem pairwise_written {tree : ModuleTree} (sorted : tree.Sorted) :
    (written tree.steps).Pairwise fun a b => ¬ b.1 < a.1 := by
  rw [steps, Document.written_append, written_definitions, List.pairwise_append]
  refine ⟨?_, Modules.pairwise_written tree.modules sorted.ascending, ?_⟩
  · exact List.pairwise_map.mpr (List.pairwise_of_forall fun _ _ => List.lt_irrefl _)
  · intro outside mem inside _
    obtain ⟨_, _, rfl⟩ := List.mem_map.mp mem
    exact List.not_lt_nil inside.1

private theorem filter_eq_map {elements : List (List String × String)} (path : List String) :
    elements.filter (·.1 = path) = ((elements.filter (·.1 = path)).map Prod.snd).map (path, ·) := by
  rw [List.map_map]
  refine (List.map_id' _).symm.trans (List.map_congr_left fun element mem => ?_)
  have there : element.1 = path := of_decide_eq_true (List.mem_filter.mp mem).2
  exact Prod.ext there rfl

/-- The definitions of a document are written in the order of their modules, and those of one
module in the order they came in. -/
theorem written_ofFilings (filings : List (ModulePath × String)) :
    written (ofFilings filings).steps =
      (filings.map fun filing => (filing.1.segments, filing.2)).mergeSort (inOrder Prod.fst) := by
  refine eq_of_filter_key Prod.fst (pairwise_written (sorted_ofFilings filings))
    (pairwise_mergeSort_inOrder Prod.fst _) fun path => ?_
  rw [filter_mergeSort_inOrder, filter_eq_map, @filter_eq_map (filings.map _)]
  congr 1
  have layout := (layout_ofFilings filings).definitions path
  rw [writtenIn] at layout
  rw [layout, List.filter_map, List.map_map]
  rfl

end ModuleTree
end SlotArray
