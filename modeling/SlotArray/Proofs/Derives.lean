import SlotArray.Expansion
import SlotArray.Proofs.Accepted

/-! The derives of a struct that becomes a container. They come from all its derive attributes, one after
another; each is kept where it first appears, unless every container has it anyway. A single derive
attribute that is no list of paths spoils all of them. -/
namespace SlotArray
open Source (TokenTree Attribute PathPhrase)

/-- Names are added in the order of their first appearance. -/
theorem addNew_eq (names more : List String) :
    addNew names more = names ++ (more.filter fun name => !names.contains name).eraseDups := by
  induction more generalizing names with
  | nil => simp [addNew]
  | cons first more ih =>
    have step : addNew names (first :: more) = addNew (if names.contains first then names else names ++ [first]) more :=
      rfl
    rw [step]
    by_cases known : names.contains first = true
    · rw [if_pos known, ih, List.filter_cons_of_neg (by rw [known]; exact Bool.false_ne_true)]
    · have fresh : (first :: more).filter (fun name => !names.contains name) =
          first :: more.filter fun name => !names.contains name :=
        List.filter_cons_of_pos (by rw [Bool.eq_false_iff.mpr known]; rfl)
      rw [if_neg known, ih, fresh, List.eraseDups_cons, List.append_assoc, List.filter_filter, List.singleton_append]
      refine congrArg (fun others => names ++ first :: List.eraseDups others) (List.filter_congr fun name _ => ?_)
      rw [List.contains_append, Bool.not_or, Bool.and_comm]
      refine congrArg (!· && !names.contains name) ?_
      rw [List.contains_cons, List.contains_nil, Bool.or_false]

theorem addNew_nil (more : List String) : addNew [] more = more.eraseDups := by
  simp [addNew_eq]

theorem nodup_addNew {names : List String} (distinct : names.Nodup) (more : List String) :
    (addNew names more).Nodup := by
  induction more generalizing names with
  | nil => exact distinct
  | cons first more ih =>
    refine @ih (if names.contains first then names else names ++ [first]) ?_
    split
    · exact distinct
    · rename_i fresh
      rw [List.contains_iff_mem] at fresh
      exact List.nodup_append.mpr ⟨distinct, List.nodup_singleton first, fun name mem other single =>
        fun same => fresh (List.mem_singleton.mp single ▸ same ▸ mem)⟩

/-- Nothing is put in another place. -/
theorem eraseDups_sublist (names : List String) : names.eraseDups.Sublist names := by
  induction length : names.length using Nat.strong_induction_on generalizing names with
  | _ size ih =>
    cases names with
    | nil => exact .slnil
    | cons first more =>
      have shorter : (more.filter fun name => !name == first).length < size := by
        rw [← length]
        exact Nat.lt_succ_of_le (List.length_filter_le _ _)
      rw [List.eraseDups_cons]
      exact ((ih _ shorter _ rfl).trans List.filter_sublist).cons_cons first

/-- A path as it is written among the derives of a container. -/
def Source.PathPhrase.text (path : PathPhrase) : String := TokenTree.write path.trees

/-- The paths that a derive attribute lists. -/
def derivePaths? (tag : Attribute) : Option (List PathPhrase) := tag.list? >>= Source.readPaths

/-- The paths that all derive attributes list, in the order of the source. -/
def listedPaths? (attributes : List Attribute) : Option (List PathPhrase) :=
  ((attributes.filter isDerive).mapM derivePaths?).map List.flatten

/-- Whether a container does not have a derive by itself. -/
def isAdded (path : PathPhrase) : Bool :=
  !path.last?.any fun segment => ("Debug" :: defaultDerives).contains segment.name

/-- The attributes of a struct that a container takes over. -/
def keptAttributes (attributes : List Attribute) : List Attribute := attributes.filter fun tag => !isDerive tag

/-- The derives that are added to those of every container. -/
def addedTexts (paths : List PathPhrase) : List String :=
  ((paths.filter isAdded).map PathPhrase.text).eraseDups

/-- They are those of some of the paths, in the same order. -/
theorem exists_addedTexts (paths : List PathPhrase) :
    ∃ extras : List PathPhrase, extras.Sublist (paths.filter isAdded) ∧
      extras.map PathPhrase.text = addedTexts paths := by
  obtain ⟨extras, kept, same⟩ := List.sublist_map_iff.mp (eraseDups_sublist ((paths.filter isAdded).map PathPhrase.text))
  exact ⟨extras, kept, same.symm⟩

theorem nodup_addedTexts (paths : List PathPhrase) : (addedTexts paths).Nodup := by
  have nodup := nodup_addNew List.nodup_nil ((paths.filter isAdded).map PathPhrase.text)
  rwa [addNew_nil] at nodup

theorem isSome_listedPaths?_iff (attributes : List Attribute) : (listedPaths? attributes).isSome = true ↔
    ∀ tag ∈ attributes, isDerive tag = true → (derivePaths? tag).isSome = true := by
  rw [listedPaths?, Option.isSome_map]
  induction attributes with
  | nil => simp
  | cons tag attributes ih =>
    rw [List.forall_mem_cons, ← ih]
    by_cases derive : isDerive tag = true
    · rw [List.filter_cons_of_pos derive, List.mapM_cons]
      cases derivePaths? tag with
      | none => simp [derive]
      | some paths => cases (attributes.filter isDerive).mapM derivePaths? <;> simp
    · simp [List.filter_cons_of_neg derive, derive]

/-- What is listed is listed by an attribute. -/
theorem exists_of_mem_listedPaths {attributes : List Attribute} {paths : List PathPhrase}
    (listed : listedPaths? attributes = some paths) {path : PathPhrase} (mem : path ∈ paths) :
    ∃ tag ∈ attributes, ∃ own, derivePaths? tag = some own ∧ path ∈ own := by
  obtain ⟨lists, read, rfl⟩ := Option.map_eq_some_iff.mp listed
  obtain ⟨own, known, inOwn⟩ := List.mem_flatten.mp mem
  suffices all : ∀ tags : List Attribute, ∀ lists, tags.mapM derivePaths? = some lists → own ∈ lists →
      ∃ tag ∈ tags, derivePaths? tag = some own by
    obtain ⟨tag, inTags, reads⟩ := all _ lists read known
    exact ⟨tag, List.mem_of_mem_filter inTags, own, reads, inOwn⟩
  intro tags
  induction tags with
  | nil =>
    intro lists read known
    cases read
    cases known
  | cons tag tags ih =>
    intro lists read known
    rw [List.mapM_cons] at read
    obtain ⟨first, readFirst, read⟩ := Option.bind_eq_some_iff.mp read
    obtain ⟨others, readOthers, same⟩ := Option.bind_eq_some_iff.mp read
    cases same
    rcases List.mem_cons.mp known with rfl | known
    · exact ⟨tag, List.mem_cons_self, readFirst⟩
    · obtain ⟨other, inTags, reads⟩ := ih others readOthers known
      exact ⟨other, List.mem_cons_of_mem _ inTags, reads⟩

/-- Derives are split off together, or not at all. -/
theorem splitDerives_eq (attributes : List Attribute) : splitDerives attributes =
    (listedPaths? attributes).elim (.error .malformed) fun paths =>
      .ok ((keptAttributes attributes).map fun tag => TokenTree.write tag.trees, addedTexts paths) := by
  have added (tag : Attribute) : addedDerives tag = (derivePaths? tag).elim (.error .malformed) fun paths =>
      .ok ((paths.filter isAdded).map PathPhrase.text) := by
    rw [addedDerives, ← derivePaths?]
    cases derivePaths? tag <;> rfl
  have all (tags : List Attribute) : tags.mapM addedDerives = (tags.mapM derivePaths?).elim (.error .malformed)
      fun lists => .ok (lists.map fun paths => (paths.filter isAdded).map PathPhrase.text) := by
    induction tags with
    | nil => rfl
    | cons tag tags ih =>
      rw [List.mapM_cons, List.mapM_cons, added, ih]
      cases derivePaths? tag with
      | none => rfl
      | some paths => cases tags.mapM derivePaths? <;> rfl
  simp only [splitDerives, all, listedPaths?]
  cases (attributes.filter isDerive).mapM derivePaths? with
  | none => rfl
  | some lists =>
    have flat : (lists.map fun paths => (paths.filter isAdded).map PathPhrase.text).flatten =
        (lists.flatten.filter isAdded).map PathPhrase.text := by
      rw [List.filter_flatten, List.map_flatten, List.map_map]
      rfl
    simp only [Option.elim_some, Option.map_some, addedTexts, ← flat, ← addNew_nil]
    rfl

end SlotArray
