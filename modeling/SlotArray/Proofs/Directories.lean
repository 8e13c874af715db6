import SlotArray.Proofs.Destinations

/-! Directories that are made one above the other. What is made lies on the way to the directory that is
asked for, and when that one is not there in the end, this is what is reported: a path does not lead
anywhere unless the path above it does. -/
namespace SlotArray.Files

/-! ## A path and the path above it -/

section Parts
variable {parts kept : List (List Char)} {path upper : String}

theorem slash_not_mem_pathParts (chars : List Char) : ∀ part ∈ pathParts chars, '/' ∉ part := by
  induction chars with
  | nil => simp [pathParts]
  | cons c rest ih =>
    by_cases slash : c = '/'
    · subst slash
      rw [pathParts_slash]
      exact List.forall_mem_cons.mpr ⟨List.not_mem_nil, ih⟩
    · obtain ⟨first, parts, cut, step⟩ := pathParts_cons slash rest
      rw [cut] at ih
      obtain ⟨cleanFirst, cleanParts⟩ := List.forall_mem_cons.mp ih
      rw [step]
      refine List.forall_mem_cons.mpr ⟨?_, cleanParts⟩
      exact List.not_mem_cons_of_ne_of_not_mem (Ne.symm slash) cleanFirst

theorem pathParts_of_clean {part : List Char} (clean : '/' ∉ part) : pathParts part = [part] := by
  induction part with
  | nil => rfl
  | cons c rest ih =>
    have ordinary : c ≠ '/' := fun slash => clean (slash ▸ List.mem_cons_self)
    obtain ⟨first, parts, cut, step⟩ := pathParts_cons ordinary rest
    rw [ih fun slash => clean (List.mem_cons_of_mem c slash)] at cut
    obtain ⟨rfl, rfl⟩ := List.cons.inj cut
    exact step

theorem intercalate_cons {part : List Char} (more : parts ≠ []) :
    ['/'].intercalate (part :: parts) = part ++ '/' :: ['/'].intercalate parts := by
  cases parts with
  | nil => exact absurd rfl more
  | cons next parts => rw [List.intercalate_cons_cons, List.append_assoc, List.singleton_append]

/-- A path is its parts with slashes between them. -/
theorem intercalate_pathParts (chars : List Char) : ['/'].intercalate (pathParts chars) = chars := by
  induction chars with
  | nil => rfl
  | cons c rest ih =>
    by_cases slash : c = '/'
    · subst slash
      have more : pathParts rest ≠ [] := by
        intro nothing
        rw [nothing] at ih
        subst ih
        cases nothing
      rw [pathParts_slash, intercalate_cons more, ih, List.nil_append]
    · obtain ⟨first, parts, cut, step⟩ := pathParts_cons slash rest
      rw [cut] at ih
      rw [step, ← ih]
      cases parts with
      | nil => rw [List.intercalate_singleton, List.intercalate_singleton]
      | cons next parts =>
        rw [intercalate_cons (List.cons_ne_nil _ _), intercalate_cons (List.cons_ne_nil _ _), List.cons_append]

/-- Parts are cut where they were put together. -/
theorem pathParts_intercalate (clean : ∀ part ∈ parts, '/' ∉ part) (some : parts ≠ []) :
    pathParts (['/'].intercalate parts) = parts := by
  induction parts with
  | nil => exact absurd rfl some
  | cons part parts ih =>
    obtain ⟨cleanPart, cleanParts⟩ := List.forall_mem_cons.mp clean
    by_cases more : parts = []
    · subst more
      rw [List.intercalate_singleton, pathParts_of_clean cleanPart]
    · rw [intercalate_cons more, pathParts_append_slash, ih cleanParts more, pathParts_of_clean cleanPart,
        List.singleton_append]

theorem prefix_intercalate (first : kept <+: parts) : ['/'].intercalate kept <+: ['/'].intercalate parts := by
  induction kept generalizing parts with
  | nil => exact List.nil_prefix
  | cons part kept ih =>
    obtain ⟨rest, rfl⟩ := first
    by_cases more : kept = []
    · subst more
      rw [List.intercalate_singleton, List.singleton_append]
      by_cases last : rest = []
      · have whole : ['/'].intercalate (part :: rest) = part := by rw [last, List.intercalate_singleton]
        exact ⟨[], by rw [List.append_nil, whole]⟩
      · rw [intercalate_cons last]
        exact List.prefix_append _ _
    · have moreToo : kept ++ rest ≠ [] := List.append_ne_nil_of_left_ne_nil more _
      rw [List.cons_append, intercalate_cons more, intercalate_cons moreToo, List.prefix_append_right_inj,
        List.prefix_cons_inj]
      exact ih (List.prefix_append _ _)

/-- An absolute path begins with an empty part and has another one. -/
theorem isAbsolute_iff : isAbsolute path = true ↔
    ∃ next rest, pathParts path.toList = [] :: next :: rest := by
  rw [isAbsolute, decide_eq_true_iff]
  cases path.toList with
  | nil => simp [pathParts]
  | cons c rest =>
    by_cases slash : c = '/'
    · subst slash
      rw [pathParts_slash, List.head?_cons, eq_self, true_iff]
      cases cut : pathParts rest with
      | nil =>
        have whole := intercalate_pathParts rest
        rw [cut] at whole
        subst whole
        cases cut
      | cons next rest => exact ⟨next, rest, rfl⟩
    · obtain ⟨first, parts, _, step⟩ := pathParts_cons slash rest
      rw [step]
      simp [slash]

/-- The first parts of a path begin where it does. -/
theorem isAbsolute_iff_of_parts (first : kept <+: pathParts path.toList)
    (cut : pathParts upper.toList = kept) (longer : isAbsolute path = true → 1 < kept.length) :
    isAbsolute upper = true ↔ isAbsolute path = true := by
  obtain ⟨rest, whole⟩ := first
  constructor
  · intro absolute
    obtain ⟨next, parts, begins⟩ := isAbsolute_iff.mp absolute
    refine isAbsolute_iff.mpr ⟨next, parts ++ rest, ?_⟩
    rw [← whole, ← cut, begins]
    rfl
  · intro absolute
    have long := longer absolute
    obtain ⟨next, parts, begins⟩ := isAbsolute_iff.mp absolute
    rw [begins] at whole
    match kept, long, whole, cut with
    | first :: second :: others, _, whole, cut =>
      obtain ⟨rfl, _⟩ := List.cons.inj whole
      exact isAbsolute_iff.mpr ⟨second, others, cut⟩

theorem dropSilent_suffix (body : Nat) (parts : List (List Char)) : dropSilent body parts <:+ parts := by
  induction parts with
  | nil => exact List.suffix_rfl
  | cons part rest ih =>
    rw [dropSilent]
    split
    · exact ih.trans (List.suffix_cons _ _)
    · exact List.suffix_rfl

/-- What the path above a path is, unless it is empty: the root, or a path of the first parts. -/
inductive IsParent (path upper : String) : Prop where
  | root (absolute : isAbsolute path = true) (root : upper = "/")
  | first {kept : List (List Char)} (parts : kept <+: pathParts path.toList)
      (upper : upper.toList = ['/'].intercalate kept) (longer : isAbsolute path = true → 1 < kept.length)

theorem isParent_of_parent? (above : parent? path = some upper) (present : upper.isEmpty = false) :
    IsParent path upper := by
  unfold parent? at above
  dsimp only at above
  have shownAll := dropSilent_suffix 1 (pathParts path.toList).reverse
  split at above
  · cases above
  · split at above
    · cases above
    · cases above
      cases present
  · rename_i last rest _ shown
    rw [shown] at shownAll
    have keptAll : dropSilent 1 rest <:+ (pathParts path.toList).reverse :=
      ((dropSilent_suffix 1 rest).trans (List.suffix_cons _ _)).trans shownAll
    split at above
    · rename_i short
      cases above
      exact .root (Bool.and_eq_true_iff.mp short).1 rfl
    · rename_i long
      cases above
      have first : (dropSilent 1 rest).reverse <+: pathParts path.toList := by
        rw [← List.reverse_suffix, List.reverse_reverse]
        exact keptAll
      refine .first first String.toList_ofList ?_
      intro absolute
      rw [absolute, Bool.true_and, decide_eq_true_iff, Nat.not_le] at long
      rwa [List.length_reverse]

/-- A path, and those above it. -/
inductive OnTheWay (path : String) : String → Prop where
  | self : OnTheWay path path
  | above {lower upper : String} (below : OnTheWay path lower) (parent : parent? lower = some upper) :
      OnTheWay path upper

end Parts

/-! ## Directories as parts that are entered -/

namespace Tree
variable {tree later : Tree} {start place : Place} {path upper : String}

/-- A part that is a name is entered when there is a directory of that name. -/
theorem enter_name_eq_ok_iff {name : List Char} {next : Place} (present : name ≠ [])
    (named : ¬ (name = ['.'] ∨ name = ['.', '.'])) : tree.enter place name = .ok next ↔
      (String.ofList name).utf8ByteSize ≤ nameLimit ∧
        tree.get? (place ++ [String.ofList name]) = some .directory ∧
        next = place ++ [String.ofList name] := by
  obtain ⟨notPoint, notPoints⟩ := not_or.mp named
  rw [enter_eq_ok_iff, if_neg (not_or.mpr ⟨present, notPoint⟩), if_neg notPoints]

/-- A path leads to a directory when all its parts can be entered, one after the other. -/
theorem isDirectory_iff_foldlM : tree.isDirectory start path = true ↔
    IsPath path ∧ ∃ place, (pathParts path.toList).foldlM tree.enter (origin start path) = .ok place := by
  have stays (parts : List (List Char)) (silent : ∀ part ∈ parts, part = []) (place : Place) :
      parts.foldlM tree.enter place = .ok place := by
    induction parts with
    | nil => rfl
    | cons part parts ih =>
      obtain ⟨rfl, later⟩ := List.forall_mem_cons.mp silent
      exact ih later
  obtain ⟨parts, silent, cut⟩ := exists_silent_parts path
  have named (place : Place) :
      (pathParts path.toList).foldlM tree.enter (origin start path) = .ok place ↔
        (namedParts path).foldlM tree.enter (origin start path) = .ok place := by
    rw [cut, List.foldlM_append, bind_eq_ok_iff]
    simp only [stays parts silent, Except.ok.injEq, exists_eq_right]
  have last {last : List Char} (ends : (namedParts path).getLast? = some last) (place : Place) :
      (namedParts path).foldlM tree.enter (origin start path) = .ok place ↔ ∃ inner,
        (namedParts path).dropLast.foldlM tree.enter (origin start path) = .ok inner ∧
          tree.enter inner last = .ok place := by
    conv_lhs => rw [namedParts_eq_dropLast_append ends]
    rw [List.foldlM_append, bind_eq_ok_iff]
    simp only [List.foldlM_cons, List.foldlM_nil, bind_pure]
  simp only [named]
  constructor
  · intro there
    rcases isDirectory_iff.mp there with ⟨place, located⟩ | ⟨place, slash, located, directory⟩
    · cases leadsTo_of_locate located with
      | origin isPath nameless =>
        rw [List.getLast?_eq_none_iff.mp nameless]
        exact ⟨isPath, _, rfl⟩
      | step isPath ends silent entered stepped =>
        exact ⟨isPath, _, (last ends _).mpr ⟨_, entered, stepped⟩⟩
    · cases leadsTo_of_locate located with
      | @name final place isPath ends notStep entered short =>
        have stepped := (enter_name_eq_ok_iff (ne_nil_of_namedParts ends) notStep).mpr
          ⟨short, directory, rfl⟩
        exact ⟨isPath, _, (last ends _).mpr ⟨_, entered, stepped⟩⟩
  · rintro ⟨isPath, place, entered⟩
    apply isDirectory_iff.mpr
    cases ends : (namedParts path).getLast? with
    | none => exact .inl ⟨_, locate_of_leadsTo (.origin isPath ends)⟩
    | some final =>
      obtain ⟨inner, enteredInner, stepped⟩ := (last ends place).mp entered
      by_cases step : final = ['.'] ∨ final = ['.', '.']
      · exact .inl ⟨place, locate_of_leadsTo (.step isPath ends step enteredInner stepped)⟩
      · obtain ⟨short, directory, rfl⟩ :=
          (enter_name_eq_ok_iff (ne_nil_of_namedParts ends) step).mp stepped
        exact .inr ⟨_, _, locate_of_leadsTo (.name isPath ends step enteredInner short), directory⟩

theorem isPath_of_beginning (isPath : IsPath path) (first : upper.toList <+: path.toList)
    (present : upper.isEmpty = false) : IsPath upper := by
  obtain ⟨noNul, _, short⟩ := isPath
  obtain ⟨rest, whole⟩ := first
  refine ⟨?_, present, Nat.lt_of_le_of_lt ?_ short⟩
  · rw [List.contains_eq_mem, decide_eq_false_iff_not] at noNul ⊢
    exact fun nul => noNul (whole ▸ List.mem_append_left _ nul)
  · have same : upper ++ String.ofList rest = path := by
      rw [← String.toList_inj, String.toList_append, String.toList_ofList, whole]
    rw [← same, String.utf8ByteSize_append]
    exact Nat.le_add_right _ _

/-- A directory lies in one. -/
theorem isDirectory_of_isParent (parent : IsParent path upper) (present : upper.isEmpty = false)
    (there : tree.isDirectory start path = true) : tree.isDirectory start upper = true := by
  obtain ⟨isPath, place, entered⟩ := isDirectory_iff_foldlM.mp there
  cases parent with
  | root absolute root =>
    subst root
    exact isDirectory_iff_foldlM.mpr ⟨⟨by decide, by decide, by decide⟩, [], rfl⟩
  | @first kept parts spelled longer =>
    have clean : ∀ part ∈ kept, '/' ∉ part :=
      fun part mem => slash_not_mem_pathParts path.toList part (parts.mem mem)
    have some : kept ≠ [] := by
      rintro rfl
      have nothing : upper = "" := String.toList_eq_nil_iff.mp spelled
      rw [nothing] at present
      cases present
    have cut : pathParts upper.toList = kept := by rw [spelled, pathParts_intercalate clean some]
    have whole := prefix_intercalate parts
    rw [intercalate_pathParts, ← spelled] at whole
    have alike : isAbsolute upper = isAbsolute path :=
      Bool.eq_iff_iff.mpr (isAbsolute_iff_of_parts parts cut longer)
    obtain ⟨rest, more⟩ := parts
    rw [← more, List.foldlM_append] at entered
    obtain ⟨inner, entered, _⟩ := bind_eq_ok_iff.mp entered
    refine isDirectory_iff_foldlM.mpr ⟨isPath_of_beginning isPath whole present, inner, ?_⟩
    rw [cut, origin, alike]
    exact entered

/-! ## Chains of directories -/

theorem onTheWay_of_mem_ancestors {n : Nat} {lower : String} (below : OnTheWay path lower) :
    ∀ upper ∈ ancestors n lower, OnTheWay path upper := by
  induction n generalizing lower with
  | zero => exact List.forall_mem_singleton.mpr below
  | succ n ih =>
    rw [ancestors]
    split
    · rename_i parent
      exact List.forall_mem_cons.mpr ⟨below, ih (.above below parent)⟩
    · exact List.forall_mem_singleton.mpr below

/-- A directory that is made is where its path says. -/
theorem made_by_makeDirectory (made : tree.makeDirectory start path = .ok later)
    (after : later.get? place = some .directory) (before : tree.get? place ≠ some .directory) :
    path.isEmpty = false ∧ place = resolve start path := by
  obtain ⟨inner, slash, located, _, rfl⟩ := makeDirectory_eq_ok_iff.mp made
  have reached : inner = resolve start path := reached_of_locate located
  refine ⟨isPath_of_locate located |>.2.1, ?_⟩
  by_contra differ
  rw [get?_put_of_ne tree (reached ▸ differ)] at after
  exact before after

/-- Directories are made nowhere but where the paths of the chain say. -/
theorem made_by_makeChain {paths : List String}
    (after : (makeChain start tree paths).2.get? place = some .directory)
    (before : tree.get? place ≠ some .directory) :
    ∃ path ∈ paths, path.isEmpty = false ∧ place = resolve start path := by
  have widen {path : String} {above : List String}
      (found : ∃ path ∈ above, path.isEmpty = false ∧ place = resolve start path) :
      ∃ other ∈ path :: above, other.isEmpty = false ∧ place = resolve start other := by
    obtain ⟨other, mem, spelled⟩ := found
    exact ⟨other, List.mem_cons_of_mem _ mem, spelled⟩
  fun_induction makeChain start tree paths with
  | case1 => exact absurd after before
  | case2 => exact absurd after before
  | case3 path above _ later made =>
    exact ⟨path, List.mem_cons_self, made_by_makeDirectory made after before⟩
  | case4 path above _ missing fault later failed ih =>
    rw [failed] at ih
    exact widen (ih after)
  | case5 path above _ missing middle chained later made ih =>
    rw [chained] at ih
    by_cases there : middle.get? place = some .directory
    · exact widen (ih there)
    · exact ⟨path, List.mem_cons_self, made_by_makeDirectory made after there⟩
  | case6 path above _ missing later chained fault failed ih =>
    rw [chained] at ih
    exact widen (ih after)
  | case7 => exact absurd after before

/-- How a chain fails: the directory itself is not there in the end, or those above it could not be made. -/
theorem makeChain_error {above : List String} {fault : FileFault}
    (failed : makeChain start tree (path :: above) = (.error fault, later)) :
    path.isEmpty = false ∧ (later.isDirectory start path = false ∨
      tree.makeDirectory start path = .error .notFound ∧
        makeChain start tree above = (.error fault, later)) := by
  have decided {fault other : FileFault} {tree : Tree}
      (ended : ((if tree.isDirectory start path then .ok () else .error fault, tree) :
        Except FileFault Unit × Tree) = (.error other, later)) : later.isDirectory start path = false := by
    split at ended
    · cases ended
    · rename_i absent
      cases ended
      exact Bool.eq_false_iff.mpr absent
  rw [makeChain] at failed
  split at failed
  · cases failed
  · rename_i present
    refine ⟨Bool.eq_false_iff.mpr present, ?_⟩
    split at failed
    · cases failed
    · rename_i missing
      split at failed
      · rename_i chained
        cases failed
        exact .inr ⟨missing, chained⟩
      · split at failed
        · cases failed
        · exact .inl (decided failed)
    · exact .inl (decided failed)

/-- Where a chain could not be made, its last directory is not there: if one above it is missing, it
lies in none. -/
theorem isDirectory_of_makeChain_error {n : Nat} {fault : FileFault}
    (failed : makeChain start tree (ancestors n path) = (.error fault, later)) :
    later.isDirectory start path = false := by
  have alone {path : String} (failed : makeChain start tree [path] = (.error fault, later)) :
      later.isDirectory start path = false := by
    obtain ⟨_, absent | ⟨missing, nothing⟩⟩ := makeChain_error failed
    · exact absent
    · cases nothing
      refine Bool.eq_false_iff.mpr fun there => ?_
      rw [makeDirectory_of_isDirectory there] at missing
      cases missing
  induction n generalizing path with
  | zero => exact alone failed
  | succ n ih =>
    rw [ancestors] at failed
    split at failed
    · rename_i upper parent
      obtain ⟨_, absent | ⟨_, chained⟩⟩ := makeChain_error failed
      · exact absent
      · obtain ⟨above, whole⟩ := exists_ancestors n upper
        have present : upper.isEmpty = false := (makeChain_error (whole ▸ chained)).1
        refine Bool.eq_false_iff.mpr fun there => ?_
        have thereToo := isDirectory_of_isParent (isParent_of_parent? parent present) present there
        rw [ih chained] at thereToo
        cases thereToo
    · exact alone failed

end Tree
end SlotArray.Files
