import SlotArray.Pool
import SlotArray.Proofs.WrittenOrder

/-! The sections of a document. Each module has one at most, so a document is known from what it
holds of every module, and definitions for different modules may be filed in any order. -/
namespace SlotArray

/-- What a document holds of one module, in the order it came in. -/
def Document.definitionsOf (document : Document) (home : ModulePath) : List String :=
  ((document.sections.find? (·.home = home)).map Section.definitions).getD []

/-- Sections ascend by their modules, and each of them holds a definition. -/
structure Document.IsOrdered (document : Document) : Prop where
  ascending : document.sections.Pairwise fun first second => first.home.before second.home
  filled : ∀ part ∈ document.sections, part.definitions ≠ []

namespace Document
variable {document other : Document} {home : ModulePath} {text : String} {sections : List Section}

private theorem ne_of_before {first second : ModulePath} (before : first.before second = true) :
    first ≠ second := by
  rintro rfl
  exact List.lt_irrefl first.segments (of_decide_eq_true before)

private theorem before_trans {first second third : ModulePath} (before : first.before second = true)
    (beforeThird : second.before third = true) : first.before third = true :=
  decide_eq_true (List.lt_trans (of_decide_eq_true before) (of_decide_eq_true beforeThird))

private theorem before_of_not_before {first second : ModulePath} (different : first ≠ second)
    (notBefore : ¬ first.before second = true) : second.before first = true := by
  refine decide_eq_true (Classical.not_not.mp fun notAfter => different ?_)
  have same : first.segments = second.segments :=
    List.le_antisymm notAfter fun before => notBefore (decide_eq_true before)
  exact congrArg ModulePath.mk same

/-- Filing makes a section of the definition's module, if any. -/
private theorem mem_insert {part : Section} (mem : part ∈ insert home text sections) :
    part.definitions ≠ [] ∧ part.home = home ∨ part ∈ sections := by
  fun_induction insert home text sections with
  | case1 =>
    rw [List.mem_singleton.mp mem]
    exact .inl ⟨List.cons_ne_nil _ _, rfl⟩
  | case2 head rest same =>
    rcases List.mem_cons.mp mem with rfl | mem
    · exact .inl ⟨by simp, same.symm⟩
    · exact .inr (List.mem_cons_of_mem _ mem)
  | case3 head rest different before =>
    rcases List.mem_cons.mp mem with rfl | mem
    · exact .inl ⟨List.cons_ne_nil _ _, rfl⟩
    · exact .inr mem
  | case4 head rest different notBefore ih =>
    rcases List.mem_cons.mp mem with rfl | mem
    · exact .inr List.mem_cons_self
    · exact (ih mem).imp id (List.mem_cons_of_mem _)

private theorem ascending_insert
    (ascending : sections.Pairwise fun first second => first.home.before second.home) :
    (insert home text sections).Pairwise fun first second => first.home.before second.home := by
  fun_induction insert home text sections with
  | case1 => exact List.pairwise_singleton _ _
  | case2 head rest => exact List.pairwise_cons.mpr (List.pairwise_cons.mp ascending)
  | case3 head rest different before =>
    refine List.pairwise_cons.mpr ⟨fun part mem => ?_, ascending⟩
    rcases List.mem_cons.mp mem with rfl | mem
    · exact before
    · exact before_trans before ((List.pairwise_cons.mp ascending).1 part mem)
  | case4 head rest different notBefore ih =>
    obtain ⟨above, ascends⟩ := List.pairwise_cons.mp ascending
    refine List.pairwise_cons.mpr ⟨fun part mem => ?_, ih ascends⟩
    rcases mem_insert mem with ⟨_, there⟩ | mem
    · exact there ▸ before_of_not_before different notBefore
    · exact above part mem

theorem isOrdered_empty : empty.IsOrdered :=
  ⟨List.Pairwise.nil, fun _ mem => nomatch mem⟩

theorem IsOrdered.append (ordered : document.IsOrdered) (home : ModulePath) (text : String) :
    (document.append home text).IsOrdered := by
  refine ⟨ascending_insert ordered.ascending, fun part mem => ?_⟩
  rcases mem_insert mem with ⟨filled, _⟩ | mem
  · exact filled
  · exact ordered.filled part mem

private theorem find?_eq_none_of_before {part : Section} (before : home.before part.home = true)
    (above : ∀ other ∈ sections, part.home.before other.home = true) :
    (part :: sections).find? (·.home = home) = none := by
  refine List.find?_eq_none.mpr fun other mem => ?_
  rcases List.mem_cons.mp mem with rfl | mem
  · simpa using (ne_of_before before).symm
  · simpa using (ne_of_before (before_trans before (above other mem))).symm

/-- A definition goes behind those of its module, and changes nothing elsewhere. -/
theorem definitionsOf_append (ordered : document.IsOrdered) (home other : ModulePath)
    (text : String) :
    (document.append home text).definitionsOf other =
      document.definitionsOf other ++ if home = other then [text] else [] := by
  obtain ⟨sections⟩ := document
  have ascending := ordered.ascending
  simp only [append, definitionsOf] at ascending ⊢
  fun_induction insert home text sections with
  | case1 => by_cases same : home = other <;> simp [same]
  | case2 head rest here =>
    by_cases same : head.home = other <;> simp [here, same]
  | case3 head rest different before =>
    by_cases same : home = other
    · subst same
      rw [find?_eq_none_of_before before (List.pairwise_cons.mp ascending).1]
      simp
    · simp [same]
  | case4 head rest different notBefore ih =>
    by_cases same : head.home = other
    · have elsewhere : home ≠ other := fun there => different (there.trans same.symm)
      simp [same, elsewhere]
    · have inner := ih ⟨ascending.of_cons, fun part mem => ordered.filled part (List.mem_cons_of_mem _ mem)⟩
        ascending.of_cons
      simpa [List.find?_cons, same] using inner

/-- Sections that ascend are told apart by their modules. -/
private theorem filter_home (ordered : document.IsOrdered) (home : ModulePath) :
    document.sections.filter (·.home = home) = (document.sections.find? (·.home = home)).toList := by
  obtain ⟨sections⟩ := document
  have ascending := ordered.ascending
  clear ordered
  induction sections with
  | nil => rfl
  | cons head rest ih =>
    obtain ⟨above, ascends⟩ := List.pairwise_cons.mp ascending
    by_cases same : head.home = home
    · have none : rest.filter (·.home = home) = [] := by
        refine List.filter_eq_nil_iff.mpr fun part mem => ?_
        simpa [← same] using (ne_of_before (above part mem)).symm
      simp [same, none]
    · simpa [List.find?_cons, same] using ih ascends

/-- A section is found in one document as in the other when both hold the same of its module. -/
private theorem find?_eq_of_definitionsOf (ordered : document.IsOrdered) (orderedOther : other.IsOrdered)
    (same : document.definitionsOf home = other.definitionsOf home) :
    document.sections.find? (·.home = home) = other.sections.find? (·.home = home) := by
  have facts : ∀ {document : Document}, document.IsOrdered → ∀ {part},
      document.sections.find? (·.home = home) = some part →
        part.home = home ∧ part.definitions ≠ [] := by
    intro document ordered part found
    exact ⟨by simpa using List.find?_some found, ordered.filled part (List.mem_of_find?_eq_some found)⟩
  unfold definitionsOf at same
  cases first : document.sections.find? (·.home = home) with
  | none =>
    cases second : other.sections.find? (·.home = home) with
    | none => rfl
    | some part =>
      rw [first, second] at same
      exact absurd same.symm (facts orderedOther second).2
  | some part =>
    cases second : other.sections.find? (·.home = home) with
    | none =>
      rw [first, second] at same
      exact absurd same (facts ordered first).2
    | some twin =>
      rw [first, second] at same
      have homes : part.home = twin.home := (facts ordered first).1.trans (facts orderedOther second).1.symm
      cases part
      cases twin
      exact congrArg some (Section.mk.injEq .. ▸ ⟨homes, same⟩)

/-- A document is known from what it holds of every module. -/
theorem ext_definitionsOf (ordered : document.IsOrdered) (orderedOther : other.IsOrdered)
    (same : ∀ home, document.definitionsOf home = other.definitionsOf home) : document = other := by
  have sorted : ∀ {document : Document}, document.IsOrdered →
      document.sections.Pairwise fun a b => ¬ b.home.segments < a.home.segments :=
    fun ordered => ordered.ascending.imp fun before => List.lt_asymm (of_decide_eq_true before)
  have alike : ∀ path : List String, document.sections.filter (·.home.segments = path) =
      other.sections.filter (·.home.segments = path) := by
    intro path
    have asHome : ∀ part : Section, decide (part.home.segments = path) = decide (part.home = ⟨path⟩) := by
      intro part
      cases part.home
      simp
    simp only [asHome]
    rw [filter_home ordered, filter_home orderedOther,
      find?_eq_of_definitionsOf ordered orderedOther (same ⟨path⟩)]
  have sections := eq_of_filter_key (fun part : Section => part.home.segments) (sorted ordered)
    (sorted orderedOther) alike
  exact congrArg Document.mk sections

/-! ## Documents of requests -/

section Requests
variable (extraDerives : List String) (requests : List Request)

theorem ofRequests_append_singleton (request : Request) :
    ofRequests extraDerives (requests ++ [request]) =
      (ofRequests extraDerives requests).append request.home (request.render extraDerives) := by
  simp [ofRequests, addRequest]

theorem isOrdered_ofRequests : (ofRequests extraDerives requests).IsOrdered := by
  induction requests using List.reverseRecOn with
  | nil => exact isOrdered_empty
  | append_singleton requests request ih =>
    rw [ofRequests_append_singleton]
    exact ih.append _ _

/-- A document holds of a module the texts of the requests for it. -/
theorem definitionsOf_ofRequests (home : ModulePath) :
    (ofRequests extraDerives requests).definitionsOf home =
      (requests.filter (·.home = home)).map (·.render extraDerives) := by
  induction requests using List.reverseRecOn with
  | nil => rfl
  | append_singleton requests request ih =>
    rw [ofRequests_append_singleton, definitionsOf_append (isOrdered_ofRequests _ _), ih,
      List.filter_append, List.map_append]
    congr 1
    by_cases here : request.home = home <;> simp [here]

variable {extraDerives requests}

/-- Only the order of requests for one module shows. -/
theorem ofRequests_congr {filed : List Request}
    (same : ∀ home, filed.filter (·.home = home) = requests.filter (·.home = home)) :
    ofRequests extraDerives filed = ofRequests extraDerives requests := by
  refine ext_definitionsOf (isOrdered_ofRequests _ _) (isOrdered_ofRequests _ _) fun home => ?_
  rw [definitionsOf_ofRequests, definitionsOf_ofRequests, same]

/-- With one request for a module at most, no order shows. -/
theorem ofRequests_of_perm {filed : List Request} (perm : filed.Perm requests)
    (single : (requests.map Request.home).Nodup) :
    ofRequests extraDerives filed = ofRequests extraDerives requests := by
  refine ofRequests_congr fun home => ?_
  have kept := perm.filter (·.home = home)
  have few : (requests.filter (·.home = home)).length ≤ 1 := by
    have count := List.nodup_iff_count_le_one.mp single home
    rwa [List.count_eq_countP, List.countP_map, List.countP_eq_length_filter] at count
  cases found : requests.filter (·.home = home) with
  | nil =>
    rw [found] at kept
    exact List.perm_nil.mp kept
  | cons request rest =>
    rw [found] at kept few
    have alone : rest = [] := List.eq_nil_of_length_eq_zero (by simpa using few)
    subst alone
    exact List.perm_singleton.mp kept

end Requests
end Document
end SlotArray
