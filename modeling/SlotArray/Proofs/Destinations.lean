import Mathlib.Data.List.TakeWhile
import SlotArray.Proofs.FileTrees

/-! Where a document goes, told from its path alone. A path that leads somewhere leads to the place that it
spells: there are no links in a tree, so a name goes down and two points go up. A name behind a directory
goes on from there unless it is absolute, and nothing keeps it below. -/
namespace SlotArray.Files

/-! ## Parts -/

section Parts
variable {part before after : List Char}

theorem pathParts_cons {c : Char} (ordinary : c ≠ '/') (rest : List Char) :
    ∃ first parts, pathParts rest = first :: parts ∧ pathParts (c :: rest) = (c :: first) :: parts := by
  cases cut : pathParts rest with
  | nil =>
    cases rest with
    | nil => cases cut
    | cons d rest =>
      rw [pathParts] at cut
      split at cut
      · cases cut
      · split at cut <;> cases cut
  | cons first parts =>
    refine ⟨first, parts, rfl, ?_⟩
    rw [pathParts, if_neg ordinary, cut]

theorem pathParts_slash (rest : List Char) : pathParts ('/' :: rest) = [] :: pathParts rest := rfl

theorem pathParts_append_slash (before after : List Char) :
    pathParts (before ++ '/' :: after) = pathParts before ++ pathParts after := by
  induction before with
  | nil => rfl
  | cons c before ih =>
    by_cases slash : c = '/'
    · subst slash
      rw [List.cons_append, pathParts_slash, pathParts_slash, ih, List.cons_append]
    · obtain ⟨first, parts, cut, step⟩ := pathParts_cons slash before
      obtain ⟨firstToo, partsToo, cutToo, stepToo⟩ := pathParts_cons slash (before ++ '/' :: after)
      rw [ih, cut, List.cons_append] at cutToo
      obtain ⟨rfl, rfl⟩ := List.cons.inj cutToo
      rw [List.cons_append, stepToo, step, List.cons_append]

end Parts

/-! ## Places that paths spell -/

section Places
variable {tree : Tree} {start place : Place} {path dir name : String}

/-- One part of a path, followed as it is spelled. -/
def stepInto (place : Place) (part : List Char) : Place :=
  if part = [] ∨ part = ['.'] then place
  else if part = ['.', '.'] then place.dropLast
  else place ++ [String.ofList part]

/-- The place that a path spells, seen from a directory. -/
def resolve (start : Place) (path : String) : Place :=
  (pathParts path.toList).foldl stepInto (Tree.origin start path)

theorem stepInto_of_enter {part : List Char} {next : Place} (entered : tree.enter place part = .ok next) :
    next = stepInto place part := by
  rw [Tree.enter_eq_ok_iff] at entered
  unfold stepInto
  split
  · rwa [if_pos (by assumption)] at entered
  · rw [if_neg (by assumption)] at entered
    split
    · rwa [if_pos (by assumption)] at entered
    · rw [if_neg (by assumption)] at entered
      exact entered.2.2

theorem foldl_stepInto_of_foldlM {parts : List (List Char)} {next : Place}
    (entered : parts.foldlM tree.enter place = .ok next) : next = parts.foldl stepInto place := by
  induction parts generalizing place with
  | nil =>
    cases entered
    rfl
  | cons part parts ih =>
    rw [List.foldlM_cons] at entered
    obtain ⟨inner, first, entered⟩ := bind_eq_ok_iff.mp entered
    rw [ih entered, List.foldl_cons, stepInto_of_enter first]

/-- What stands behind the last name of a path are empty parts. -/
theorem exists_silent_parts (path : String) :
    ∃ silent, (∀ part ∈ silent, part = []) ∧ pathParts path.toList = Tree.namedParts path ++ silent := by
  refine ⟨((pathParts path.toList).reverse.takeWhile List.isEmpty).reverse, fun part mem => ?_, ?_⟩
  · exact List.isEmpty_iff.mp (List.mem_takeWhile_imp (List.mem_reverse.mp mem))
  · rw [Tree.namedParts, ← List.reverse_append, List.takeWhile_append_dropWhile, List.reverse_reverse]

theorem namedParts_eq_dropLast_append {last : List Char}
    (ends : (Tree.namedParts path).getLast? = some last) :
    Tree.namedParts path = (Tree.namedParts path).dropLast ++ [last] :=
  (List.dropLast_append_getLast? last ends).symm

/-- The slashes at the end of a path lead nowhere else. -/
theorem resolve_eq_namedParts (start : Place) (path : String) :
    resolve start path = (Tree.namedParts path).foldl stepInto (Tree.origin start path) := by
  have stays (parts : List (List Char)) (silent : ∀ part ∈ parts, part = []) (place : Place) :
      parts.foldl stepInto place = place := by
    induction parts with
    | nil => rfl
    | cons part parts ih =>
      obtain ⟨rfl, later⟩ := List.forall_mem_cons.mp silent
      exact ih later
  obtain ⟨parts, silent, cut⟩ := exists_silent_parts path
  rw [resolve, cut, List.foldl_append]
  exact stays parts silent _

/-- The place that a path led to. -/
def Tree.Target.reached : Tree.Target → Place
  | .directory place => place
  | .name place _ => place

theorem ne_nil_of_namedParts {last : List Char} (ends : (Tree.namedParts path).getLast? = some last) :
    last ≠ [] := by
  rintro rfl
  rw [Tree.namedParts, List.getLast?_reverse] at ends
  have stops := List.head?_dropWhile_not List.isEmpty (pathParts path.toList).reverse
  rw [ends] at stops
  exact nomatch stops

/-- A path that leads to a target leads to the place that it spells. -/
theorem reached_of_locate {target : Tree.Target} (located : tree.locate start path = .ok target) :
    target.reached = resolve start path := by
  rw [resolve_eq_namedParts]
  cases Tree.leadsTo_of_locate located with
  | origin isPath nameless => rw [List.getLast?_eq_none_iff.mp nameless, List.foldl_nil, Tree.Target.reached]
  | step isPath ends silent entered stepped =>
    rw [namedParts_eq_dropLast_append ends, List.foldl_append, ← foldl_stepInto_of_foldlM entered]
    exact stepInto_of_enter stepped
  | @name last place isPath ends named entered short =>
    have goesDown : stepInto place last = place ++ [String.ofList last] := by
      obtain ⟨notPoint, notPoints⟩ := not_or.mp named
      rw [stepInto, if_neg (not_or.mpr ⟨ne_nil_of_namedParts ends, notPoint⟩), if_neg notPoints]
    rw [Tree.Target.reached, namedParts_eq_dropLast_append ends, List.foldl_append,
      ← foldl_stepInto_of_foldlM entered]
    exact goesDown.symm

/-! ## Names behind directories -/

theorem isAbsolute_append (present : path.isEmpty = false) (more : String) :
    isAbsolute (path ++ more) = isAbsolute path := by
  have some : path.toList ≠ [] := by
    rintro nothing
    rw [String.isEmpty_iff.mpr (String.toList_eq_nil_iff.mp nothing)] at present
    cases present
  rw [isAbsolute, isAbsolute, String.toList_append, List.head?_append_of_ne_nil _ some]

/-- An absolute name leads where it says, whatever the directory is. -/
theorem resolve_join_of_absolute (absolute : isAbsolute name = true) (start : Place) (dir : String) :
    resolve start (join dir name) = resolve start name := by
  rw [join, if_pos absolute]

/-- Any other name goes on from the directory. -/
theorem resolve_join (relative : isAbsolute name = false) (start : Place) (dir : String) :
    resolve start (join dir name) = (pathParts name.toList).foldl stepInto (resolve start dir) := by
  rw [join, relative, if_neg Bool.false_ne_true]
  by_cases empty : dir.isEmpty = true
  · rw [empty, Bool.true_or, if_pos rfl]
    obtain rfl := String.isEmpty_iff.mp empty
    rw [String.empty_append, resolve, resolve, Tree.origin, Tree.origin, relative]
    rfl
  · rw [Bool.not_eq_true] at empty
    have same (more : String) : Tree.origin start (dir ++ more) = Tree.origin start dir := by
      rw [Tree.origin, Tree.origin, isAbsolute_append empty]
    rw [empty, Bool.false_or]
    by_cases slash : dir.toList.getLast? = some '/'
    · -- The directory ends in a slash: the empty part behind it gives way to the name.
      obtain ⟨front, ends⟩ := List.getLast?_eq_some_iff.mp slash
      rw [if_pos (decide_eq_true slash), resolve, resolve, same, String.toList_append, ends,
        List.append_assoc, List.singleton_append, pathParts_append_slash, pathParts_append_slash,
        List.foldl_append, List.foldl_append]
      rfl
    · rw [if_neg (by simpa using slash), resolve, resolve, String.append_assoc, same,
        String.toList_append, String.toList_append]
      have cut := pathParts_append_slash dir.toList name.toList
      have bar : "/".toList = ['/'] := by decide
      rw [bar, List.singleton_append, cut, List.foldl_append]

/-! ## Staying below -/

/-- Parts that never go up further than they have come down, from a given depth on. -/
def staysBelow : Nat → List (List Char) → Bool
  | _, [] => true
  | depth, part :: rest =>
    if part = [] ∨ part = ['.'] then staysBelow depth rest
    else if part = ['.', '.'] then
      match depth with
      | 0 => false
      | depth + 1 => staysBelow depth rest
    else staysBelow (depth + 1) rest

theorem prefix_foldl_stepInto {parts : List (List Char)} {base inner : Place}
    (stays : staysBelow inner.length parts = true) :
    base <+: parts.foldl stepInto (base ++ inner) := by
  induction parts generalizing inner with
  | nil => exact List.prefix_append _ _
  | cons part rest ih =>
    rw [List.foldl_cons, stepInto]
    unfold staysBelow at stays
    split
    · rw [if_pos (by assumption)] at stays
      exact ih stays
    · rw [if_neg (by assumption)] at stays
      split
      · rw [if_pos (by assumption)] at stays
        rcases inner.eq_nil_or_concat with rfl | ⟨inner, last, rfl⟩
        · cases stays
        · rw [List.length_concat] at stays
          rw [List.concat_eq_append, ← List.append_assoc, List.dropLast_concat]
          exact ih stays
      · rw [if_neg (by assumption)] at stays
        rw [List.append_assoc]
        apply ih
        rwa [List.length_append]

/-- A relative name that never goes up further than it has come down leads below the directory. -/
theorem prefix_resolve_join (relative : isAbsolute name = false)
    (stays : staysBelow 0 (pathParts name.toList) = true) (start : Place) (dir : String) :
    resolve start dir <+: resolve start (join dir name) := by
  rw [resolve_join relative]
  have below := @prefix_foldl_stepInto _ (resolve start dir) [] stays
  rwa [List.append_nil] at below

end Places

/-! ## Files that change -/

section Sink
variable {tree later : Tree} {start place : Place} {dir name text : String} {result : Except PassError Unit}

/-- What the file at a place holds, if there is one. -/
def Tree.file? (tree : Tree) (place : Place) : Option ByteArray :=
  match tree.get? place with
  | some (.file bytes) => some bytes
  | _ => none

theorem Tree.file?_eq_some_iff {bytes : ByteArray} :
    tree.file? place = some bytes ↔ tree.get? place = some (.file bytes) := by
  unfold file?
  split
  · rename_i held there
    rw [there]
    simp
  · rename_i noFile
    simp only [reduceCtorEq, false_iff]
    exact noFile bytes

/-- Where nothing was or is made but a directory, no file is different. -/
theorem Tree.file?_of_same (same : later.get? place = tree.get? place ∨
    tree.get? place = none ∧ later.get? place = some .directory) :
    later.file? place = tree.file? place := by
  rcases same with same | ⟨free, made⟩
  · rw [file?, same, file?]
  · rw [file?, made, file?, free]

/-- Of all files a document that was taken changes the one that its path spells. -/
theorem file?_of_stored (stored : sink start dir name text tree = (.ok (), later)) :
    later.file? (resolve start (join dir name)) = some text.toUTF8 ∧
      ∀ other ≠ resolve start (join dir name), later.file? other = tree.file? other := by
  obtain ⟨held, place, located, others⟩ := stored_of_sink stored
  obtain ⟨same, locatedToo, there⟩ := Tree.read_eq_ok_iff.mp held
  have reached : place = resolve start (join dir name) := reached_of_locate located
  have reachedToo : same = resolve start (join dir name) := reached_of_locate locatedToo
  subst reached
  subst reachedToo
  exact ⟨Tree.file?_eq_some_iff.mpr there, fun other differ => Tree.file?_of_same (others other differ)⟩

/-- One that was refused changes none. -/
theorem file?_of_refused {error : PassError}
    (refused : sink start dir name text tree = (.error error, later)) (place : Place) :
    later.file? place = tree.file? place :=
  Tree.file?_of_same ((write_error_of_sink refused).2 place)

theorem changed_by_sink (gave : sink start dir name text tree = (result, later))
    (changed : later.file? place ≠ tree.file? place) :
    result = .ok () ∧ place = resolve start (join dir name) := by
  cases result with
  | error error => exact absurd (file?_of_refused gave place) changed
  | ok =>
    refine ⟨rfl, ?_⟩
    by_contra differ
    exact changed ((file?_of_stored gave).2 place differ)

/-- A sink is at work outside its directory when it takes a document whose path leads there, and the file
there does not hold the document already. -/
theorem exists_changed_outside_iff (gave : sink start dir name text tree = (result, later)) :
    (∃ place, ¬ resolve start dir <+: place ∧ later.file? place ≠ tree.file? place) ↔
      result = .ok () ∧ ¬ resolve start dir <+: resolve start (join dir name) ∧
        tree.file? (resolve start (join dir name)) ≠ some text.toUTF8 := by
  constructor
  · rintro ⟨place, outside, changed⟩
    obtain ⟨rfl, rfl⟩ := changed_by_sink gave changed
    rw [(file?_of_stored gave).1] at changed
    exact ⟨rfl, outside, changed.symm⟩
  · rintro ⟨rfl, outside, differs⟩
    refine ⟨_, outside, ?_⟩
    rw [(file?_of_stored gave).1]
    exact differs.symm

/-- A pass hands its sink one document, under the name that is set. -/
theorem changed_by_run {generator : Generator} {feed : List Occurrence}
    (changed : (generator.run (sink start dir) feed tree).2.file? place ≠ tree.file? place) :
    place = resolve start (join dir generator.fileName) := by
  unfold Generator.run at changed
  split at changed
  · exact absurd rfl changed
  · exact absurd rfl changed
  · rename_i document _
    split at changed
    · rename_i gave
      exact (changed_by_sink gave changed).2
    · rename_i gave
      exact (changed_by_sink gave changed).2

end Sink

/-- Where a sink changes files. It changes one at most, at the place that its directory and the name spell,
and does so outside the directory exactly when that place is outside and the document is taken and new
there. A relative name that never goes up further than it has come down spells a place below whatever the
directory is; an absolute one takes no notice of the directory. The same holds for a pass and the name that
is set for its document. -/
theorem documents_outside_iff (start : Place) (dir : String) :
    (∀ name text tree result later, sink start dir name text tree = (result, later) →
      (∀ place, later.file? place ≠ tree.file? place →
        result = .ok () ∧ place = resolve start (join dir name)) ∧
      ((∃ place, ¬ resolve start dir <+: place ∧ later.file? place ≠ tree.file? place) ↔
        result = .ok () ∧ ¬ resolve start dir <+: resolve start (join dir name) ∧
          tree.file? (resolve start (join dir name)) ≠ some text.toUTF8)) ∧
    (∀ name, isAbsolute name = false → staysBelow 0 (pathParts name.toList) = true →
      resolve start dir <+: resolve start (join dir name)) ∧
    (∀ name, isAbsolute name = true → resolve start (join dir name) = resolve start name) ∧
    (∀ (generator : Generator) (feed : List Occurrence) (tree : Tree) (place : Place),
      (generator.run (sink start dir) feed tree).2.file? place ≠ tree.file? place →
        place = resolve start (join dir generator.fileName)) := by
  refine ⟨?_, fun name relative stays => prefix_resolve_join relative stays start dir,
    fun name absolute => resolve_join_of_absolute absolute start dir,
    fun generator feed tree place => changed_by_run⟩
  intro name text tree result later gave
  exact ⟨fun place => changed_by_sink gave, exists_changed_outside_iff gave⟩

/-- A name that climbs and one that is absolute: where there was no file, each document stands beside the
directory that it was given to, not in it. -/
theorem documents_beside_directory :
    let tree := Tree.empty.put ["work"] .directory
    let climbing := sink ["work"] "out" "../x.rs" "a" tree
    let absolute := sink ["work"] "out" "/y.rs" "b" tree
    resolve ["work"] "out" = ["work", "out"] ∧
      (climbing.1 = .ok () ∧ ¬ ["work", "out"] <+: ["work", "x.rs"] ∧ tree.file? ["work", "x.rs"] = none ∧
        climbing.2.file? ["work", "x.rs"] = some "a".toUTF8) ∧
      absolute.1 = .ok () ∧ ¬ ["work", "out"] <+: ["y.rs"] ∧ tree.file? ["y.rs"] = none ∧
        absolute.2.file? ["y.rs"] = some "b".toUTF8 := by
  decide +kernel

/-- A name that goes up as far as it has come down stays below, wherever the directory is. -/
theorem documents_below_directory :
    let after := sink ["work"] "../out" "sub/../x.rs" "a"
      (((Tree.empty.put ["work"] .directory).put ["out"] .directory).put ["out", "sub"] .directory)
    resolve ["work"] "../out" <+: resolve ["work"] (join "../out" "sub/../x.rs") ∧
      after.2.file? ["out", "x.rs"] = some "a".toUTF8 ∧
      ¬ ∃ place, ¬ resolve ["work"] "../out" <+: place ∧ after.2.file? place ≠
        (((Tree.empty.put ["work"] .directory).put ["out"] .directory).put ["out", "sub"]
          .directory).file? place := by
  intro after
  obtain ⟨gives, below, _, _⟩ := documents_outside_iff ["work"] "../out"
  have inside := below "sub/../x.rs" (by decide +kernel) (by decide +kernel)
  refine ⟨inside, by decide +kernel, fun outside => ?_⟩
  exact ((gives "sub/../x.rs" "a" _ after.1 after.2 rfl).2.mp outside).2.1 inside

end SlotArray.Files
